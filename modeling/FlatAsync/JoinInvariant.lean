import FlatAsync.AsyncRunnerLifeCycle
import FlatAsync.JoinLedger

/-!
# Joins in the runner system

The ledger of joins says who calls a proceed handler; this file ties it to the
runners.  A join that has begun is the present suspension of its owner, a
stored one lies in the owner's `defer_handler_`, the copies of the token belong
to tasks that are not deleted, and a runner whose callable still calls the
library is in nobody's hands.  The last point is an invariant only of the runs
in which nobody overtakes such a callable.
-/

namespace FlatAsync

variable {T : Type}

/-- The callable on thread `t` is the launch loop of `RunAsyncWait`. -/
def JoinTable.waitLoop (table : JoinTable T) (t : ThreadId) : Bool :=
  match table.running t with
  | .user _ => false
  | .join j => (table.joins j).kind = .wait

/-- No continuation of a runner is taken from its queue while a callable of the
runner, other than the loop of `RunAsyncWait`, has calls of the library left. -/
def NotOvertaken (s : JoinState T) : JoinAction T → Prop
  | .runner (.dispatch _ closure) =>
      ∀ t, (s.system.threads t).pc = .deferring closure.runner .callable →
        s.table.callsLeft t = 0 ∨ s.table.waitLoop t = true
  | _ => True

/-! ### The table and the runners -/

/-- Runner `r` is alive, and no thread is to move it. -/
def System.Untouched (s : System) (r : RunnerId) : Prop :=
  (s.runners r).stage = .alive ∧ ∀ t, (s.threads t).pc.role r = none

/-- How the table of joins fits the runner system.  The clause `untouched` is
claimed only for runs that are `punctual`, in the sense of `NotOvertaken`. -/
structure Matches (punctual : Prop) (table : JoinTable T) (s : System) : Prop where
  begun : ∀ j, (table.joins j).phase = .begun →
    (s.runners (table.joins j).owner).answer = .holders ∧
      table.suspension (table.joins j).owner = some j
  stored : ∀ j, (table.joins j).phase = .stored →
    (s.runners (table.joins j).owner).stage = .alive ∧
      (s.runners (table.joins j).owner).deferHandler = some .callable ∧
        table.stored (table.joins j).owner = .join j ∧
          table.suspension (table.joins j).owner = some j
  handlers : ∀ r j, (s.runners r).deferHandler = some .callable → table.stored r = .join j →
    (table.joins j).phase = .stored ∧ (table.joins j).owner = r
  running : ∀ t r j, (s.threads t).pc = .deferring r .callable → table.running t = .join j →
    (table.joins j).owner = r ∧
      ((table.joins j).phase = .begun ∨ (table.joins j).phase = .answered)
  untouched : punctual → ∀ t r, (s.threads t).pc = .deferring r .callable →
    0 < table.callsLeft t → table.waitLoop t = false → s.Untouched r
  children : ∀ r child, table.child r = some child →
    (s.runners r).stage = .deleted ∨ r ∈ (table.joins child.join).holders

namespace Matches

variable {punctual : Prop} {table : JoinTable T} {s : System} {t : ThreadId} {r : RunnerId}
  {j : JoinId}

theorem frame (fits : Matches punctual table s) {after : System}
    (begun : ∀ j, (table.joins j).phase = .begun →
      (after.runners (table.joins j).owner).answer = .holders)
    (stored : ∀ r, (s.runners r).stage = .alive →
      (s.runners r).deferHandler = some .callable →
        (after.runners r).stage = .alive ∧ (after.runners r).deferHandler = some .callable)
    (handlers : ∀ r, (after.runners r).deferHandler = some .callable →
      (s.runners r).deferHandler = some .callable)
    (running : ∀ t r, (after.threads t).pc = .deferring r .callable →
      (s.threads t).pc = .deferring r .callable)
    (untouched : punctual → ∀ t r, (after.threads t).pc = .deferring r .callable →
      0 < table.callsLeft t → table.waitLoop t = false → s.Untouched r → after.Untouched r)
    (stage : ∀ r, (s.runners r).stage = .deleted → (after.runners r).stage = .deleted) :
    Matches punctual table after where
  begun j phase := ⟨begun j phase, (fits.begun j phase).2⟩
  stored j phase := by
    obtain ⟨alive, handler, bookkeeping⟩ := fits.stored j phase
    obtain ⟨stillAlive, stillStored⟩ := stored _ alive handler
    exact ⟨stillAlive, stillStored, bookkeeping⟩
  handlers r j handler code := fits.handlers r j (handlers r handler) code
  running t r j pc code := fits.running t r j (running t r pc) code
  untouched calm t r pc calls loop :=
    untouched calm t r pc calls loop (fits.untouched calm t r (running t r pc) calls loop)
  children r child found := (fits.children r child found).imp_left (stage r)

theorem same (fits : Matches punctual table s) {after : System}
    (runners : ∀ r, (after.runners r).SameLife (s.runners r))
    (threads : ∀ t, (after.threads t).pc = (s.threads t).pc) : Matches punctual table after := by
  apply fits.frame
  · intro j phase
    rw [(runners _).answer]
    exact (fits.begun j phase).1
  · intro r alive handler
    rw [(runners r).stage, (runners r).deferHandler]
    exact ⟨alive, handler⟩
  · intro r handler
    rwa [(runners r).deferHandler] at handler
  · intro t r pc
    rwa [threads] at pc
  · intro _ t r _ _ _ untouched
    refine ⟨(runners r).stage.trans untouched.1, fun thread => ?_⟩
    rw [threads]
    exact untouched.2 thread
  · intro r deleted
    exact (runners r).stage.trans deleted

theorem setRunner (fits : Matches punctual table s) {runner : AsyncRunner}
    (unchanged : runner.SameLife (s.runners r)) : Matches punctual table (s.setRunner r runner) := by
  apply fits.same
  · intro other
    by_cases equal : other = r
    · subst equal
      simpa using unchanged
    · simp only [System.setRunner_runners, Function.update_of_ne equal]
      constructor <;> rfl
  · exact fun _ => rfl

/-- A thread that holds a runner moves on without starting a callable. -/
theorem move (fits : Matches punctual table s) (phases : AllPhases s) {role : Role}
    (plays : (s.threads t).pc.role r = some role) {runner : AsyncRunner} {pc : Pc}
    (elsewhere : ∀ other, pc ≠ .deferring other .callable)
    (leaves : ∀ other, other ≠ r → pc.role other = none)
    (before : (s.runners r).deferHandler ≠ some .callable)
    (after : runner.deferHandler ≠ some .callable)
    (stage : (s.runners r).stage = .deleted → runner.stage = .deleted) :
    Matches punctual table ((s.setRunner r runner).moveTo t pc) := by
  have others : ∀ {other}, other ≠ r →
      ((s.setRunner r runner).moveTo t pc).runners other = s.runners other := by
    intro other different
    simp [different]
  apply fits.frame
  · intro j phase
    have holds := (fits.begun j phase).1
    have different : (table.joins j).owner ≠ r := by
      intro equal
      rw [equal] at holds
      exact phases.answer_of_role plays holds
    rw [others different]
    exact holds
  · intro other alive handler
    have different : other ≠ r := by
      rintro rfl
      exact before handler
    rw [others different]
    exact ⟨alive, handler⟩
  · intro other handler
    have different : other ≠ r := by
      rintro rfl
      exact after (by simpa using handler)
    rwa [others different] at handler
  · intro thread other calls
    by_cases here : thread = t
    · subst here
      exact absurd (by simpa using calls) (elsewhere other)
    · simpa [here] using calls
  · intro _ thread other _ _ _ untouched
    have different : other ≠ r := by
      rintro rfl
      simp [untouched.2 t] at plays
    refine ⟨by rw [others different]; exact untouched.1, fun another => ?_⟩
    by_cases here : another = t
    · subst here
      simpa using leaves other different
    · simpa [here] using untouched.2 another
  · intro other deleted
    by_cases equal : other = r
    · subst equal
      simpa using stage deleted
    · rw [others equal]
      exact deleted

theorem goOn (fits : Matches punctual table s) (phases : AllPhases s) {role next : Role}
    (plays : (s.threads t).pc.role r = some role) (inside : role ≠ .exiting)
    {runner : AsyncRunner} {pc : Pc} (goes : pc.role r = some next)
    (after : runner.deferHandler = (s.runners r).deferHandler ∨
      runner.deferHandler = some .proceedHandler)
    (stage : runner.stage = (s.runners r).stage) :
    Matches punctual table ((s.setRunner r runner).moveTo t pc) := by
  have missing := phases.deferHandler_of_role plays inside
  refine fits.move phases plays ?_ ?_ ?_ ?_ ?_
  · rintro other rfl
    simp [Pc.role] at goes
  · exact fun other different => Pc.role_of_ne goes different
  · simp [missing]
  · rcases after with same | proceeds
    · simp [same, missing]
    · simp [proceeds]
  · exact fun deleted => stage.trans deleted

theorem rest (fits : Matches punctual table s) {thread : Thread}
    (elsewhere : ∀ other, thread.pc ≠ .deferring other .callable)
    (idle : ∀ other, thread.pc.role other = none) : Matches punctual table (s.setThread t thread) := by
  apply fits.frame
  · exact fun j phase => (fits.begun j phase).1
  · exact fun _ alive handler => ⟨alive, handler⟩
  · exact fun _ handler => handler
  · intro other r calls
    by_cases here : other = t
    · subst here
      exact absurd (by simpa using calls) (elsewhere r)
    · simpa [here] using calls
  · intro _ _ r _ _ _ untouched
    refine ⟨untouched.1, fun another => ?_⟩
    by_cases here : another = t
    · subst here
      simpa using idle r
    · simpa [here] using untouched.2 another
  · exact fun _ deleted => deleted

theorem restack (fits : Matches punctual table s) {runner : AsyncRunner} {thread : Thread}
    (unchanged : runner.SameLife (s.runners r)) (pc : thread.pc = (s.threads t).pc) :
    Matches punctual table ((s.setRunner r runner).setThread t thread) := by
  apply (fits.setRunner unchanged).same
  · intro other
    constructor <;> rfl
  · intro other
    by_cases here : other = t
    · subst here
      simpa using pc
    · simp [here]

theorem create (fits : Matches punctual table s) (phases : AllPhases s)
    (fresh : (s.runners r).stage = .unborn) (scheduler : SchedulerId) :
    Matches punctual table (s.create r scheduler) := by
  have others : ∀ {other}, other ≠ r →
      (s.create r scheduler).runners other = s.runners other := by
    intro other different
    simp [System.create, System.schedule, different]
  apply fits.frame
  · intro j phase
    have holds := (fits.begun j phase).1
    have different : (table.joins j).owner ≠ r := by
      intro equal
      have alive := (phases.unheld_of_answer holds).1
      simp [equal, fresh] at alive
    rw [others different]
    exact holds
  · intro other alive handler
    have different : other ≠ r := by
      rintro rfl
      simp [fresh] at alive
    rw [others different]
    exact ⟨alive, handler⟩
  · intro other handler
    by_cases equal : other = r
    · subst equal
      simp [System.create, System.schedule] at handler
    · rwa [others equal] at handler
  · exact fun _ _ pc => pc
  · intro _ _ other _ _ _ untouched
    have different : other ≠ r := by
      rintro rfl
      simp [untouched.1] at fresh
    exact ⟨by rw [others different]; exact untouched.1, untouched.2⟩
  · intro other deleted
    have different : other ≠ r := by
      rintro rfl
      simp [fresh] at deleted
    rw [others different]
    exact deleted

/-- A thread takes a closure whose runner no callable still counts on. -/
theorem onEnter (fits : Matches punctual table s) {closure : Closure}
    (calm : punctual → ∀ t, (s.threads t).pc = .deferring closure.runner .callable →
      table.callsLeft t = 0 ∨ table.waitLoop t = true) :
    Matches punctual table (s.onEnter t closure) := by
  have running : ∀ thread other, ((s.onEnter t closure).threads thread).pc =
      .deferring other .callable → (s.threads thread).pc = .deferring other .callable := by
    intro thread other calls
    by_cases here : thread = t
    · subst here
      simp [System.onEnter] at calls
    · simpa [System.onEnter, here] using calls
  apply fits.frame
  · exact fun j phase => (fits.begun j phase).1
  · exact fun _ alive handler => ⟨alive, handler⟩
  · exact fun _ handler => handler
  · exact running
  · intro punctual thread other pc calls loop untouched
    have different : closure.runner ≠ other := by
      rintro rfl
      rcases calm punctual thread (running thread _ pc) with none | waits
      · omega
      · simp [loop] at waits
    refine ⟨untouched.1, fun another => ?_⟩
    by_cases here : another = t
    · subst here
      simp [System.onEnter, Pc.role, different]
    · simpa [System.onEnter, here] using untouched.2 another
  · exact fun _ deleted => deleted

/-- A proceed handler is called for a suspension that belongs to no join. -/
theorem proceed (fits : Matches punctual table s) (alone : table.suspension r = none) :
    Matches punctual table (s.proceed r) := by
  have others : ∀ {other}, other ≠ r → (s.proceed r).runners other = s.runners other := by
    intro other different
    simp [System.proceed, System.schedule, different]
  have handlers : ∀ other,
      ((s.proceed r).runners other).deferHandler = (s.runners other).deferHandler ∧
        ((s.proceed r).runners other).stage = (s.runners other).stage := by
    intro other
    by_cases equal : other = r
    · subst equal
      simp [System.proceed, System.schedule]
    · simp [others equal]
  apply fits.frame
  · intro j phase
    obtain ⟨holds, suspension⟩ := fits.begun j phase
    have different : (table.joins j).owner ≠ r := by
      intro equal
      simp [equal, alone] at suspension
    rw [others different]
    exact holds
  · intro other alive handler
    exact ⟨(handlers other).2.trans alive, (handlers other).1.trans handler⟩
  · exact fun other handler => (handlers other).1 ▸ handler
  · exact fun _ _ pc => pc
  · exact fun _ _ other _ _ _ untouched => ⟨(handlers other).2.trans untouched.1, untouched.2⟩
  · exact fun other deleted => (handlers other).2.trans deleted

end Matches

/-- The steps of the runner system during which the table may stay as it is. -/
def JoinTable.Undisturbed (punctual : Prop) (table : JoinTable T) (s : System) : Action → Prop
  | .dispatch _ closure =>
      punctual → ∀ t, (s.threads t).pc = .deferring closure.runner .callable →
        table.callsLeft t = 0 ∨ table.waitLoop t = true
  | .defer .. => False
  | .onExit _ r => (s.runners r).deferHandler ≠ some .callable
  | .proceed r => table.suspension r = none
  | _ => True

theorem Matches.rules (punctual : Prop) (table : JoinTable T) :
    StepRules (fun _ => True) (table.Undisturbed punctual)
      (fun s => LifeInvariant s ∧ Matches punctual table s) where
  setRunner both same :=
    ⟨LifeInvariant.rules.setRunner both.1 same, both.2.setRunner (by
      constructor <;> simp [same.stage, same.coroHelper, same.deferHandler, same.answer,
        same.yields, same.resumes])⟩
  raise both runs :=
    ⟨LifeInvariant.rules.raise both.1 runs, both.2.restack (by constructor <;> rfl) rfl⟩
  catchException both runs thrown :=
    ⟨LifeInvariant.rules.catchException both.1 runs thrown,
      both.2.restack (by constructor <;> rfl) rfl⟩
  terminate both :=
    ⟨LifeInvariant.rules.terminate both.1,
      both.2.same (fun _ => by constructor <;> rfl) (fun _ => rfl)⟩
  create both fresh scheduler :=
    ⟨LifeInvariant.rules.create both.1 fresh scheduler,
      both.2.create both.1.phases fresh scheduler⟩
  onEnter both idle waiting calm :=
    ⟨LifeInvariant.rules.onEnter both.1 idle waiting trivial, both.2.onEnter calm⟩
  start {s t r} both entered := by
    have plays : (s.threads t).pc.role r = some (.entered .start) := by
      simp [entered, Pc.role]
    have goes : (Pc.body r).role r = some .body := by simp [Pc.role]
    exact ⟨LifeInvariant.rules.start both.1 entered,
      both.2.goOn both.1.phases plays (by simp) goes (.inl rfl) rfl⟩
  wake {s t r site} both entered suspended := by
    have plays : (s.threads t).pc.role r = some (.entered .proceed) := by
      simp [entered, Pc.role]
    have goes : (Pc.body r).role r = some .body := by simp [Pc.role]
    exact ⟨LifeInvariant.rules.wake both.1 entered suspended,
      both.2.goOn both.1.phases plays (by simp) goes (.inl rfl) rfl⟩
  notSuspended both entered running := by
    obtain ⟨site, suspended⟩ := both.1.phases.suspended_of_entered entered
    exact absurd suspended (running site)
  yield _ _ assumption := assumption.elim
  switchAway {s t r site dst} both runs target := by
    have life := LifeInvariant.rules.switchAway both.1 runs target
    have phases : AllPhases (s.setScheduler r dst) :=
      both.1.phases.setRunner _ (by constructor <;> rfl)
    have fits : Matches punctual table (s.setScheduler r dst) :=
      both.2.setRunner (by constructor <;> rfl)
    have plays : ((s.setScheduler r dst).threads t).pc.role r = some .body := by
      change (s.threads t).pc.role r = some .body
      simp [runs, Pc.role]
    have goes : (Pc.exiting r).role r = some .exiting := by simp [Pc.role]
    exact ⟨life, fits.goOn phases plays (by simp) goes (.inr rfl) rfl⟩
  failedSwitch {s t r site dst} both runs tolerated := by
    have life : LifeInvariant ((s.setScheduler r dst).escape t r site) :=
      LifeInvariant.rules.failedSwitch both.1 runs tolerated
    have fits : Matches punctual table (s.setScheduler r dst) :=
      both.2.setRunner (by constructor <;> rfl)
    refine ⟨life, ?_⟩
    cases site with
    | defer | switchTo dst | accessCtor source dst =>
        exact fits.restack (by constructor <;> rfl) rfl
    | accessDtor source => exact fits.same (fun _ => by constructor <;> rfl) (fun _ => rfl)
  finish {s t r} both runs _ := by
    have plays : (s.threads t).pc.role r = some .body := by simp [runs, Pc.role]
    have goes : (Pc.exiting r).role r = some .exiting := by simp [Pc.role]
    exact ⟨LifeInvariant.rules.finish both.1 runs trivial,
      both.2.goOn both.1.phases plays (by simp) goes (.inl rfl) rfl⟩
  takeHandler {s t r handler} both exits stored assumption := by
    have plays : (s.threads t).pc.role r = some .exiting := by simp [exits, Pc.role]
    refine ⟨LifeInvariant.rules.takeHandler both.1 exits stored trivial, ?_⟩
    cases handler with
    | callable => exact absurd stored assumption
    | proceedHandler =>
        refine both.2.move both.1.phases plays ?_ ?_ ?_ ?_ ?_
        · simp
        · intro other different
          simp [Pc.role, Ne.symm different]
        · simp [stored]
        · simp
        · exact id
  delete {s t r} both exits missing _ := by
    have plays : (s.threads t).pc.role r = some .exiting := by simp [exits, Pc.role]
    refine ⟨LifeInvariant.rules.delete both.1 exits missing trivial,
      both.2.move both.1.phases plays ?_ ?_ ?_ ?_ ?_⟩
    · simp
    · exact fun _ _ => rfl
    · simp [missing]
    · simp [missing]
    · exact fun _ => rfl
  callProceed {s t r} both switches := by
    have plays : (s.threads t).pc.role r = some .switching := by simp [switches, Pc.role]
    have missing := both.1.phases.deferHandler_of_role plays (by simp)
    have moved : Matches punctual table
        ((s.setRunner r { s.runners r with answer := .nobody }).moveTo t .leaving) := by
      refine both.2.move both.1.phases plays ?_ ?_ ?_ ?_ ?_
      · simp
      · exact fun _ _ => rfl
      · simp [missing]
      · simp [missing]
      · exact id
    exact ⟨LifeInvariant.rules.callProceed both.1 switches,
      moved.same (fun _ => by constructor <;> rfl) (fun _ => rfl)⟩
  returnHandler both defers :=
    ⟨LifeInvariant.rules.returnHandler both.1 defers, both.2.rest (by simp) (fun _ => rfl)⟩
  detach both leaves :=
    ⟨LifeInvariant.rules.detach both.1 leaves, both.2.rest (by simp) (fun _ => rfl)⟩
  proceed both holds alone :=
    ⟨LifeInvariant.rules.proceed both.1 holds trivial, both.2.proceed alone⟩

namespace Matches

variable {punctual : Prop} {table : JoinTable T} {s : System} {t : ThreadId} {r : RunnerId}
  {j : JoinId}

/-! ### Updates of the table -/

/-- The shared state of a join is updated: copies are released for deleted
runners only, and no call is added to a loop. -/
theorem setJoin (fits : Matches punctual table s) {join : Join T}
    (phase : join.phase = (table.joins j).phase) (owner : join.owner = (table.joins j).owner)
    (kind : join.kind = (table.joins j).kind)
    (holders : ∀ r ∈ (table.joins j).holders,
      (s.runners r).stage = .deleted ∨ r ∈ join.holders)
    (looping : join.looping = true → (table.joins j).looping = true)
    (launched : join.handlers - join.launched ≤
      (table.joins j).handlers - (table.joins j).launched) :
    Matches punctual (table.setJoin j join) s where
  begun other begun := by
    by_cases same : other = j
    · subst same
      simp only [JoinTable.setJoin, Function.update_self, phase, owner] at begun ⊢
      exact fits.begun other begun
    · simp only [JoinTable.setJoin, Function.update_of_ne same] at begun ⊢
      exact fits.begun other begun
  stored other stored := by
    by_cases same : other = j
    · subst same
      simp only [JoinTable.setJoin, Function.update_self, phase, owner] at stored ⊢
      exact fits.stored other stored
    · simp only [JoinTable.setJoin, Function.update_of_ne same] at stored ⊢
      exact fits.stored other stored
  handlers r other handler code := by
    have before := fits.handlers r other handler code
    by_cases same : other = j
    · subst same
      simpa only [JoinTable.setJoin, Function.update_self, phase, owner] using before
    · simpa only [JoinTable.setJoin, Function.update_of_ne same] using before
  running t r other pc code := by
    have before := fits.running t r other pc code
    by_cases same : other = j
    · subst same
      simpa only [JoinTable.setJoin, Function.update_self, phase, owner] using before
    · simpa only [JoinTable.setJoin, Function.update_of_ne same] using before
  untouched calm t r pc calls loop := by
    refine fits.untouched calm t r pc ?_ ?_
    · refine Nat.lt_of_lt_of_le calls ?_
      unfold JoinTable.callsLeft
      simp only [JoinTable.setJoin]
      cases code : table.running t with
      | user calls => exact Nat.le_refl _
      | join other =>
          by_cases same : other = j
          · subst same
            simp only [Function.update_self]
            split
            next loops => rw [if_pos (looping loops)]; exact launched
            next => exact Nat.zero_le _
          · simp [same]
    · rw [← loop]
      unfold JoinTable.waitLoop
      simp only [JoinTable.setJoin]
      cases code : table.running t with
      | user calls => rfl
      | join other =>
          by_cases same : other = j
          · subst same
            simp [kind]
          · simp [same]
  children r child found := by
    rcases fits.children r child found with deleted | holds
    · exact .inl deleted
    · by_cases same : child.join = j
      · rw [same] at holds ⊢
        simpa [JoinTable.setJoin] using holders r holds
      · simpa [JoinTable.setJoin, same] using Or.inr holds

theorem setChild (fits : Matches punctual table s) {child : Child}
    (holds : (s.runners r).stage = .deleted ∨ r ∈ (table.joins child.join).holders) :
    Matches punctual (table.setChild r child) s := by
  refine { fits with children := fun other otherChild found => ?_ }
  by_cases same : other = r
  · subst same
    have equal : child = otherChild := by simpa [JoinTable.setChild] using found
    exact equal ▸ holds
  · exact fits.children other otherChild (by simpa [JoinTable.setChild, same] using found)

theorem owe (fits : Matches punctual table s) : Matches punctual (table.owe t j) s := { fits with }

/-- Join `j` changes in what an increment of the counter sets, and its proceed
handler may be due. -/
theorem settle (fits : Matches punctual table s) {join : Join T}
    (same : join.SameButCounter (table.joins j)) (proceeds : Bool) :
    Matches punctual (table.settle t j join proceeds) s := by
  have updated : Matches punctual (table.setJoin j join) s := by
    refine fits.setJoin same.phase same.owner same.kind ?_ ?_ ?_
    · exact fun r holds => .inr (same.holders ▸ holds)
    · exact fun looping => same.looping ▸ looping
    · exact Nat.le_of_eq (by rw [same.handlers, same.launched])
  unfold JoinTable.settle
  split
  · exact updated.owe
  · exact updated

theorem releaseIfLast (fits : Matches punctual table s) :
    Matches punctual (table.releaseIfLast t j) s :=
  fits.settle (Join.afterRelease_same _) _

theorem releaseLoop (fits : Matches punctual table s) : Matches punctual (table.releaseLoop t j) s := by
  apply Matches.releaseIfLast
  exact fits.setJoin rfl rfl rfl (fun _ holds => .inr holds) (by simp) (Nat.le_refl _)

theorem releaseChild (fits : Matches punctual table s) (deleted : (s.runners r).stage = .deleted) :
    Matches punctual (table.releaseChild t r) s := by
  unfold JoinTable.releaseChild
  split
  next child found =>
    apply Matches.releaseIfLast
    refine fits.setJoin rfl rfl rfl (fun other holds => ?_) id (Nat.le_refl _)
    by_cases same : other = r
    · exact .inl (same ▸ deleted)
    · exact .inr ((List.mem_erase_of_ne same).mpr holds)
  · exact fits

theorem launch (fits : Matches punctual table s) (created : RunnerId) :
    Matches punctual (table.launch j created) s := by
  have launched : Matches punctual (table.setJoin j
      { table.joins j with
        launched := (table.joins j).launched + 1
        holders := created :: (table.joins j).holders }) s :=
    fits.setJoin rfl rfl rfl (fun _ holds => .inr (List.mem_cons_of_mem _ holds)) id
      (Nat.sub_le_sub_left (Nat.le_succ _) _)
  exact launched.setChild (.inr (by simp [JoinTable.setJoin]))

theorem setEnded (fits : Matches punctual table s) {child : Child}
    (found : table.child r = some child) :
    Matches punctual (table.setChild r { child with ended := true }) s :=
  fits.setChild (fits.children r child found)

theorem childReturns (fits : Matches punctual table s) {child : Child}
    (found : table.child r = some child) (value : Option T) :
    Matches punctual (table.childReturns t r child value) s := by
  have ended := fits.setEnded found
  rcases table.childReturns_cases t r child value with ⟨-, _, -, same⟩ | ⟨-, same⟩ | ⟨-, -, same⟩ <;>
    rw [same]
  · exact ended.settle (Join.tryProceed_same _ _) _
  · exact { ended with }
  · exact ended

theorem increment (fits : Matches punctual table s) (index : Nat) :
    Matches punctual (table.increment t j index) s := by
  have counted : Matches punctual (table.setCounting t none) s := { fits with }
  exact counted.settle (Join.tryIndex_same _ _) _

theorem newJoin (fits : Matches punctual table s) (ledger : Ledger table)
    (fresh : (table.joins j).phase = .unused) (kind : JoinKind) (handlers : Nat) :
    Matches punctual (table.newJoin r j kind handlers) s where
  begun other begun := by
    have different : other ≠ j := by
      rintro rfl
      simp [JoinTable.newJoin, JoinTable.setJoin] at begun
    simp only [JoinTable.newJoin, JoinTable.setJoin, Function.update_of_ne different] at begun ⊢
    exact fits.begun other begun
  stored other stored := by
    have different : other ≠ j := by
      rintro rfl
      simp [JoinTable.newJoin, JoinTable.setJoin] at stored
    simp only [JoinTable.newJoin, JoinTable.setJoin, Function.update_of_ne different] at stored ⊢
    exact fits.stored other stored
  handlers runner other handler code := by
    have before := fits.handlers runner other handler code
    have different : other ≠ j := by
      rintro rfl
      simp [fresh] at before
    simpa [JoinTable.newJoin, JoinTable.setJoin, different] using before
  running thread runner other pc code := by
    have before := fits.running thread runner other pc code
    have different : other ≠ j := by
      rintro rfl
      simp [fresh] at before
    simpa [JoinTable.newJoin, JoinTable.setJoin, different] using before
  untouched calm thread runner pc calls loop := by
    have same : ∀ other, table.running thread = .join other → other ≠ j := by
      rintro other code rfl
      have before := fits.running thread runner other pc code
      simp [fresh] at before
    refine fits.untouched calm thread runner pc ?_ ?_
    · unfold JoinTable.callsLeft at calls ⊢
      cases code : table.running thread with
      | user calls' => simpa [JoinTable.newJoin, JoinTable.setJoin, code] using calls
      | join other =>
          simpa [JoinTable.newJoin, JoinTable.setJoin, code, same other code] using calls
    · unfold JoinTable.waitLoop at loop ⊢
      cases code : table.running thread with
      | user calls' => rfl
      | join other =>
          simpa [JoinTable.newJoin, JoinTable.setJoin, code, same other code] using loop
  children runner child found := by
    have different : child.join ≠ j := by
      intro same
      exact ledger.known runner child found (same ▸ fresh)
    simpa [JoinTable.newJoin, JoinTable.setJoin, different] using
      fits.children runner child found

/-! ### Steps that change the table and a runner -/

theorem yield_runners {other : RunnerId} (different : other ≠ r) :
    (s.yield t r .defer .callable).runners other = s.runners other := by
  simp [System.yield, different]

theorem yield_running {thread : ThreadId} {other : RunnerId}
    (pc : ((s.yield t r .defer .callable).threads thread).pc = .deferring other .callable) :
    (s.threads thread).pc = .deferring other .callable := by
  by_cases here : thread = t
  · subst here
    simp [System.yield] at pc
  · simpa [System.yield, here] using pc

private theorem yield_untouched (runs : (s.threads t).pc = .body r) {other : RunnerId}
    (untouched : s.Untouched other) : (s.yield t r .defer .callable).Untouched other := by
  have different : other ≠ r := by
    rintro rfl
    have none := untouched.2 t
    simp [runs, Pc.role] at none
  refine ⟨?_, fun thread => ?_⟩
  · rw [yield_runners different]
    exact untouched.1
  · by_cases here : thread = t
    · subst here
      simp [System.yield, Pc.role, Ne.symm different]
    · simpa [System.yield, here] using untouched.2 thread

theorem body_of_owner (fits : Matches punctual table s) (phases : AllPhases s)
    (runs : (s.threads t).pc = .body r)
    (phase : (table.joins j).phase = .stored ∨ (table.joins j).phase = .begun) :
    (table.joins j).owner ≠ r := by
  have plays : (s.threads t).pc.role r = some .body := by simp [runs, Pc.role]
  intro equal
  rcases phase with stored | begun
  · obtain ⟨-, handler, -⟩ := fits.stored j stored
    rw [equal, phases.deferHandler_of_role plays (by simp)] at handler
    cases handler
  · exact phases.answer_of_role plays (equal ▸ (fits.begun j begun).1)

private theorem yield_children (fits : Matches punctual table s) {runner : RunnerId} {child : Child}
    (found : table.child runner = some child) :
    ((s.yield t r .defer .callable).runners runner).stage = .deleted ∨
      runner ∈ (table.joins child.join).holders := by
  refine (fits.children runner child found).imp_left fun deleted => ?_
  by_cases equal : runner = r
  · subst equal
    simpa [System.yield] using deleted
  · rw [yield_runners equal]
    exact deleted

theorem deferUser (fits : Matches punctual table s) (phases : AllPhases s)
    (runs : (s.threads t).pc = .body r) (calls : Nat) :
    Matches punctual (table.deferUser r calls) (s.yield t r .defer .callable) where
  begun j begun := by
    have different : (table.joins j).owner ≠ r := fits.body_of_owner phases runs (.inr begun)
    simpa [JoinTable.deferUser, yield_runners different, different] using fits.begun j begun
  stored j stored := by
    have different : (table.joins j).owner ≠ r := fits.body_of_owner phases runs (.inl stored)
    simpa [JoinTable.deferUser, yield_runners different, different] using fits.stored j stored
  handlers other j handler code := by
    by_cases equal : other = r
    · subst equal
      simp [JoinTable.deferUser] at code
    · rw [yield_runners equal] at handler
      exact fits.handlers other j handler (by simpa [JoinTable.deferUser, equal] using code)
  running thread other j pc code :=
    fits.running thread other j (yield_running pc) code
  untouched calm thread other pc calls loop :=
    yield_untouched runs
      (fits.untouched calm thread other (yield_running pc) calls loop)
  children runner child found := fits.yield_children found

theorem deferJoin (fits : Matches punctual table s) (phases : AllPhases s)
    (runs : (s.threads t).pc = .body r) (idle : (table.joins j).phase = .idle)
    (owner : (table.joins j).owner = r) :
    Matches punctual (table.deferJoin r j) (s.yield t r .defer .callable) where
  begun other begun := by
    have different : other ≠ j := by
      rintro rfl
      simp [JoinTable.deferJoin, JoinTable.setJoin] at begun
    simp only [JoinTable.deferJoin, JoinTable.setJoin, Function.update_of_ne different] at begun ⊢
    have apart := fits.body_of_owner phases runs (.inr begun)
    rw [yield_runners apart]
    simpa [apart] using fits.begun other begun
  stored other stored := by
    by_cases same : other = j
    · subst same
      have plays : (s.threads t).pc.role r = some .body := by simp [runs, Pc.role]
      obtain ⟨-, alive, -⟩ := (phases r).held_of_role (t := t) plays
      change (s.runners r).stage = .alive at alive
      simp [JoinTable.deferJoin, JoinTable.setJoin, System.yield, owner, alive]
    · simp only [JoinTable.deferJoin, JoinTable.setJoin, Function.update_of_ne same] at stored ⊢
      have apart := fits.body_of_owner phases runs (.inl stored)
      rw [yield_runners apart]
      simpa [apart] using fits.stored other stored
  handlers runner other handler code := by
    by_cases equal : runner = r
    · subst equal
      have same : j = other := by simpa [JoinTable.deferJoin] using code
      subst same
      simpa [JoinTable.deferJoin, JoinTable.setJoin] using owner
    · rw [yield_runners equal] at handler
      have before := fits.handlers runner other handler
        (by simpa [JoinTable.deferJoin, equal] using code)
      have different : other ≠ j := by
        rintro rfl
        simp [idle] at before
      simpa [JoinTable.deferJoin, JoinTable.setJoin, different] using before
  running thread runner other pc code := by
    have before := fits.running thread runner other (yield_running pc) code
    have different : other ≠ j := by
      rintro rfl
      simp [idle] at before
    simpa [JoinTable.deferJoin, JoinTable.setJoin, different] using before
  untouched calm thread runner pc calls loop := by
    have before := yield_running pc
    have calls' : (table.deferJoin r j).callsLeft thread = table.callsLeft thread := by
      unfold JoinTable.callsLeft
      cases code : table.running thread with
      | user calls => simp [JoinTable.deferJoin, JoinTable.setJoin, code]
      | join other =>
          by_cases same : other = j
          · subst same
            simp [JoinTable.deferJoin, JoinTable.setJoin, code]
          · simp [JoinTable.deferJoin, JoinTable.setJoin, code, same]
    have loop' : (table.deferJoin r j).waitLoop thread = table.waitLoop thread := by
      unfold JoinTable.waitLoop
      cases code : table.running thread with
      | user calls => simp [JoinTable.deferJoin, JoinTable.setJoin, code]
      | join other =>
          by_cases same : other = j
          · subst same
            simp [JoinTable.deferJoin, JoinTable.setJoin, code]
          · simp [JoinTable.deferJoin, JoinTable.setJoin, code, same]
    rw [calls'] at calls
    rw [loop'] at loop
    exact yield_untouched runs (fits.untouched calm thread runner before calls loop)
  children runner child found := by
    have before := fits.yield_children (t := t) (r := r) found
    by_cases same : child.join = j
    · simpa [JoinTable.deferJoin, JoinTable.setJoin, same] using before
    · simpa [JoinTable.deferJoin, JoinTable.setJoin, same] using before

private theorem takeHandler_untouched (phases : AllPhases s)
    (exits : (s.threads t).pc = .exiting r) :
    (s.takeHandler t r .callable).Untouched r := by
  have plays : (s.threads t).pc.role r = some .exiting := by simp [exits, Pc.role]
  obtain ⟨-, alive, -⟩ := (phases r).held_of_role (t := t) plays
  change (s.runners r).stage = .alive at alive
  refine ⟨by simpa [System.takeHandler] using alive, fun thread => ?_⟩
  by_cases here : thread = t
  · subst here
    simp [System.takeHandler, Pc.role]
  · have none : (s.threads thread).pc.role r = none := by
      by_contra some
      exact here (phases.role_unique plays (Option.ne_none_iff_isSome.mp some))
    simpa [System.takeHandler, here] using none

private theorem takeHandler_others (exits : (s.threads t).pc = .exiting r) {other : RunnerId}
    (untouched : s.Untouched other) : (s.takeHandler t r .callable).Untouched other := by
  have different : other ≠ r := by
    rintro rfl
    have none := untouched.2 t
    simp [exits, Pc.role] at none
  refine ⟨by simpa [System.takeHandler, different] using untouched.1, fun thread => ?_⟩
  by_cases here : thread = t
  · subst here
    simp [System.takeHandler, Pc.role]
  · simpa [System.takeHandler, here] using untouched.2 thread

private theorem takeHandler_children (fits : Matches punctual table s) {runner : RunnerId}
    {child : Child}
    (found : table.child runner = some child) :
    ((s.takeHandler t r .callable).runners runner).stage = .deleted ∨
      runner ∈ (table.joins child.join).holders := by
  refine (fits.children runner child found).imp_left fun deleted => ?_
  by_cases equal : runner = r
  · subst equal
    simpa [System.takeHandler] using deleted
  · simpa [System.takeHandler, equal] using deleted

private theorem beginUser (fits : Matches punctual table s) (phases : AllPhases s)
    (exits : (s.threads t).pc = .exiting r) {calls : Nat} (code : table.stored r = .user calls) :
    Matches punctual { table with running := Function.update table.running t (.user calls) }
      (s.takeHandler t r .callable) where
  begun j begun := by
    have plays : (s.threads t).pc.role r = some .exiting := by simp [exits, Pc.role]
    have before := fits.begun j begun
    have different : (table.joins j).owner ≠ r := by
      intro equal
      exact phases.answer_of_role plays (equal ▸ before.1)
    simpa [System.takeHandler, different] using before
  stored j stored := by
    have before := fits.stored j stored
    have different : (table.joins j).owner ≠ r := by
      intro equal
      simp [equal, code] at before
    simpa [System.takeHandler, different] using before
  handlers other j handler stored := by
    have different : other ≠ r := by
      rintro rfl
      simp [System.takeHandler] at handler
    exact fits.handlers other j (by simpa [System.takeHandler, different] using handler) stored
  running thread other j pc running := by
    have away : thread ≠ t := by
      rintro rfl
      simp at running
    exact fits.running thread other j (by simpa [System.takeHandler, away] using pc)
      (by simpa [away] using running)
  untouched calm thread other pc left loop := by
    by_cases here : thread = t
    · subst here
      have equal : r = other := by simpa [System.takeHandler] using pc
      subst equal
      exact takeHandler_untouched phases exits
    · refine takeHandler_others exits (fits.untouched calm thread other ?_ ?_ ?_)
      · simpa [System.takeHandler, here] using pc
      · simpa [JoinTable.callsLeft, here] using left
      · simpa [JoinTable.waitLoop, here] using loop
  children runner child found := fits.takeHandler_children found

private theorem beginJoin (fits : Matches punctual table s) (phases : AllPhases s)
    (exits : (s.threads t).pc = .exiting r)
    (handler : (s.runners r).deferHandler = some .callable) (code : table.stored r = .join j) :
    Matches punctual
      { table.setJoin j { table.joins j with phase := .begun } with
        running := Function.update table.running t (.join j) }
      (s.takeHandler t r .callable) := by
  have plays : (s.threads t).pc.role r = some .exiting := by simp [exits, Pc.role]
  obtain ⟨phase, owner⟩ := fits.handlers r j handler code
  obtain ⟨-, -, -, suspension⟩ := fits.stored j phase
  rw [owner] at suspension
  constructor
  · intro other begun
    by_cases same : other = j
    · subst same
      simp [JoinTable.setJoin, System.takeHandler, owner, suspension, DeferHandler.answer]
    · simp only [JoinTable.setJoin, Function.update_of_ne same] at begun ⊢
      have before := fits.begun other begun
      have different : (table.joins other).owner ≠ r := by
        intro equal
        exact phases.answer_of_role plays (equal ▸ before.1)
      simpa [System.takeHandler, different] using before
  · intro other stored
    have same : other ≠ j := by
      rintro rfl
      simp [JoinTable.setJoin] at stored
    simp only [JoinTable.setJoin, Function.update_of_ne same] at stored ⊢
    have before := fits.stored other stored
    have different : (table.joins other).owner ≠ r := by
      intro equal
      have suspended := before.2.2.2
      rw [equal, suspension] at suspended
      simp [Ne.symm same] at suspended
    simpa [System.takeHandler, different] using before
  · intro runner other stillStored stored
    have different : runner ≠ r := by
      rintro rfl
      simp [System.takeHandler] at stillStored
    have before := fits.handlers runner other
      (by simpa [System.takeHandler, different] using stillStored) stored
    have same : other ≠ j := by
      rintro rfl
      exact different (before.2.symm.trans owner)
    simpa [JoinTable.setJoin, same] using before
  · intro thread runner other pc running
    by_cases here : thread = t
    · subst here
      have equal : r = runner := by simpa [System.takeHandler] using pc
      have same : j = other := by simpa using running
      subst equal same
      simp [JoinTable.setJoin, owner]
    · have before := fits.running thread runner other
        (by simpa [System.takeHandler, here] using pc) (by simpa [here] using running)
      have same : other ≠ j := by
        rintro rfl
        simp [phase] at before
      simpa [JoinTable.setJoin, same] using before
  · intro calm thread runner pc left loop
    by_cases here : thread = t
    · subst here
      have equal : r = runner := by simpa [System.takeHandler] using pc
      subst equal
      exact takeHandler_untouched phases exits
    · have before : (s.threads thread).pc = .deferring runner .callable := by
        simpa [System.takeHandler, here] using pc
      have apart : ∀ other, table.running thread = .join other → other ≠ j := by
        rintro other running rfl
        have begun := fits.running thread runner other before running
        simp [phase] at begun
      refine takeHandler_others exits (fits.untouched calm thread runner before ?_ ?_)
      · unfold JoinTable.callsLeft at left ⊢
        cases running : table.running thread with
        | user calls => simpa [JoinTable.setJoin, here, running] using left
        | join other =>
            simpa [JoinTable.setJoin, here, running, apart other running] using left
      · unfold JoinTable.waitLoop at loop ⊢
        cases running : table.running thread with
        | user calls => rfl
        | join other =>
            simpa [JoinTable.setJoin, here, running, apart other running] using loop
  · intro runner child found
    have before := fits.takeHandler_children (t := t) (r := r) found
    by_cases same : child.join = j
    · simpa [JoinTable.setJoin, same] using before
    · simpa [JoinTable.setJoin, same] using before

theorem beginHandler (fits : Matches punctual table s) (phases : AllPhases s)
    (exits : (s.threads t).pc = .exiting r)
    (handler : (s.runners r).deferHandler = some .callable) :
    Matches punctual (table.beginHandler t r) (s.takeHandler t r .callable) := by
  unfold JoinTable.beginHandler
  cases code : table.stored r with
  | user calls => exact fits.beginUser phases exits code
  | join j => exact fits.beginJoin phases exits handler code

theorem pay (fits : Matches punctual table s) (begun : (table.joins j).phase = .begun) :
    Matches punctual (table.pay t j) (s.proceed (table.joins j).owner) := by
  have suspension := (fits.begun j begun).2
  have handlers : ∀ other,
      ((s.proceed (table.joins j).owner).runners other).deferHandler =
          (s.runners other).deferHandler ∧
        ((s.proceed (table.joins j).owner).runners other).stage = (s.runners other).stage := by
    intro other
    by_cases equal : other = (table.joins j).owner
    · subst equal
      simp [System.proceed, System.schedule]
    · simp [System.proceed, System.schedule, equal]
  constructor
  · intro other phase
    have same : other ≠ j := by
      rintro rfl
      simp [JoinTable.pay, JoinTable.setJoin] at phase
    simp only [JoinTable.pay, JoinTable.setJoin, Function.update_of_ne same] at phase ⊢
    have before := fits.begun other phase
    have different : (table.joins other).owner ≠ (table.joins j).owner := by
      intro equal
      have suspended := before.2
      rw [equal, suspension] at suspended
      simp [Ne.symm same] at suspended
    simpa [System.proceed, System.schedule, different] using before
  · intro other phase
    have same : other ≠ j := by
      rintro rfl
      simp [JoinTable.pay, JoinTable.setJoin] at phase
    simp only [JoinTable.pay, JoinTable.setJoin, Function.update_of_ne same] at phase ⊢
    rw [(handlers _).1, (handlers _).2]
    exact fits.stored other phase
  · intro runner other handler code
    have before := fits.handlers runner other ((handlers runner).1 ▸ handler) code
    have same : other ≠ j := by
      rintro rfl
      simp [begun] at before
    simpa [JoinTable.pay, JoinTable.setJoin, same] using before
  · intro thread runner other pc code
    have before := fits.running thread runner other pc code
    by_cases same : other = j
    · subst same
      simpa [JoinTable.pay, JoinTable.setJoin] using before.1
    · simpa [JoinTable.pay, JoinTable.setJoin, same] using before
  · intro calm thread runner pc left loop
    have untouched : s.Untouched runner := by
      refine fits.untouched calm thread runner pc ?_ ?_
      · unfold JoinTable.callsLeft at left ⊢
        cases code : table.running thread with
        | user calls => simpa [JoinTable.pay, JoinTable.setJoin, code] using left
        | join other =>
            by_cases same : other = j
            · subst same
              simpa [JoinTable.pay, JoinTable.setJoin, code] using left
            · simpa [JoinTable.pay, JoinTable.setJoin, code, same] using left
      · unfold JoinTable.waitLoop at loop ⊢
        cases code : table.running thread with
        | user calls => rfl
        | join other =>
            by_cases same : other = j
            · subst same
              simpa [JoinTable.pay, JoinTable.setJoin, code] using loop
            · simpa [JoinTable.pay, JoinTable.setJoin, code, same] using loop
    exact ⟨(handlers runner).2.trans untouched.1, untouched.2⟩
  · intro runner child found
    rw [(handlers runner).2]
    have before := fits.children runner child found
    by_cases same : child.join = j
    · simpa [JoinTable.pay, JoinTable.setJoin, same] using before
    · simpa [JoinTable.pay, JoinTable.setJoin, same] using before

theorem userCall (fits : Matches punctual table s) {calls : Nat}
    (code : table.running t = .user calls) :
    Matches punctual
      { table with running := Function.update table.running t (.user (table.callsLeft t - 1)) }
      s where
  begun := fits.begun
  stored := fits.stored
  handlers := fits.handlers
  running thread runner j pc running := by
    have away : thread ≠ t := by
      rintro rfl
      simp at running
    exact fits.running thread runner j pc (by simpa [away] using running)
  untouched calm thread runner pc left loop := by
    by_cases here : thread = t
    · subst here
      refine fits.untouched calm thread runner pc ?_ ?_
      · simp only [JoinTable.callsLeft, Function.update_self] at left
        simp only [JoinTable.callsLeft]
        omega
      · simp [JoinTable.waitLoop, code]
    · refine fits.untouched calm thread runner pc ?_ ?_
      · simpa [JoinTable.callsLeft, here] using left
      · simpa [JoinTable.waitLoop, here] using loop
  children := fits.children

end Matches

/-! ### Steps of joins -/

structure JoinInvariant (punctual : Prop) (s : JoinState T) : Prop where
  life : LifeInvariant s.system
  ledger : Ledger s.table
  fits : Matches punctual s.table s.system

namespace JoinInvariant

variable {punctual : Prop} {s : JoinState T} {t : ThreadId} {r : RunnerId} {j : JoinId}

/-- A step of the runner system during which the table may stay as it is. -/
theorem undisturbed (inv : JoinInvariant punctual s) {action : Action}
    (enabled : s.system.Enabled action) (contract : ProceedContract s.system action)
    (calm : s.table.Undisturbed punctual s.system action) :
    LifeInvariant (s.system.step action) ∧ Matches punctual s.table (s.system.step action) :=
  (Matches.rules punctual s.table).step ⟨inv.life, inv.fits⟩ enabled contract (fun _ _ => trivial) calm

/-- `OnExit` begins a callable, or deletes the runner and its closure. -/
theorem onExit (inv : JoinInvariant punctual s) (running : s.system.terminated = false)
    (exits : (s.system.threads t).pc = .exiting r) :
    JoinInvariant punctual ⟨s.system.onExit t r, s.afterRunner (.onExit t r)⟩ := by
  have enabled : s.system.Enabled (.onExit t r) := ⟨running, exits⟩
  have life : LifeInvariant (s.system.onExit t r) := inv.life.step enabled trivial
  cases handler : (s.system.runners r).deferHandler with
  | none =>
      obtain ⟨-, fits⟩ := inv.undisturbed enabled trivial
        (by simp [JoinTable.Undisturbed, handler])
      have alive := (inv.life.phases.exiting exits).1
      refine ⟨life, ?_, ?_⟩
      · simp only [JoinState.afterRunner, handler]
        apply inv.ledger.releaseChild
        intro child found
        have holds := inv.fits.children r child found
        simpa [alive] using holds
      · simp only [JoinState.afterRunner, handler]
        apply Matches.releaseChild fits
        simp [System.step, System.onExit, handler, System.delete]
  | some stored =>
      cases stored with
      | proceedHandler =>
          obtain ⟨-, fits⟩ := inv.undisturbed enabled trivial
            (by simp [JoinTable.Undisturbed, handler])
          refine ⟨life, ?_, ?_⟩
          · simpa only [JoinState.afterRunner, handler] using inv.ledger
          · simp only [JoinState.afterRunner, handler]
            exact fits
      | callable =>
          refine ⟨life, ?_, ?_⟩
          · simp only [JoinState.afterRunner, handler]
            apply inv.ledger.beginHandler
            intro j code
            simp [(inv.fits.handlers r j handler code).1]
          · simp only [JoinState.afterRunner, handler, System.onExit]
            exact inv.fits.beginHandler inv.life.phases exits handler

/-- A body calls `Defer`: it finds an event, or yields with the new table. -/
theorem defer (inv : JoinInvariant punctual s) (runs : (s.system.threads t).pc = .body r)
    {table : JoinTable T} (ledger : Ledger table)
    (fits : Matches punctual table (s.system.yield t r .defer .callable)) :
    JoinInvariant punctual ⟨s.system.defer t r .defer .callable, s.ifCalm t r table⟩ := by
  unfold System.defer JoinState.ifCalm
  cases found : s.system.handleEvents t r with
  | some status =>
      refine ⟨LifeInvariant.rules.raise inv.life runs, inv.ledger, ?_⟩
      exact inv.fits.restack (by constructor <;> rfl) rfl
  | none => exact ⟨LifeInvariant.rules.yield inv.life runs trivial, ledger, fits⟩

theorem create (inv : JoinInvariant punctual s) (fresh : (s.system.runners r).stage = .unborn)
    (scheduler : SchedulerId) : JoinInvariant punctual ⟨s.system.create r scheduler, s.table⟩ :=
  ⟨LifeInvariant.rules.create inv.life fresh scheduler, inv.ledger,
    inv.fits.create inv.life.phases fresh scheduler⟩

theorem deferJoin (inv : JoinInvariant punctual s) (runs : (s.system.threads t).pc = .body r)
    (idle : (s.table.joins j).phase = .idle) (owner : (s.table.joins j).owner = r)
    (looping : (s.table.joins j).looping = true) :
    JoinInvariant punctual
      ⟨s.system.defer t r .defer .callable, s.ifCalm t r (s.table.deferJoin r j)⟩ :=
  inv.defer runs (inv.ledger.deferJoin idle looping)
    (inv.fits.deferJoin inv.life.phases runs idle owner)

theorem newJoin (inv : JoinInvariant punctual s) (fresh : (s.table.joins j).phase = .unused)
    (kind : JoinKind) (handlers : Nat) :
    JoinInvariant punctual ⟨s.system, s.table.newJoin r j kind handlers⟩ :=
  ⟨inv.life, inv.ledger.newJoin fresh kind handlers,
    inv.fits.newJoin inv.ledger fresh kind handlers⟩

theorem launch (inv : JoinInvariant punctual s) (looping : (s.table.joins j).looping = true)
    (used : (s.table.joins j).phase ≠ .unused)
    (handling : (s.table.joins j).kind ≠ .waiter →
      (s.table.joins j).phase = .begun ∨ (s.table.joins j).phase = .answered)
    (created : RunnerId) : JoinInvariant punctual ⟨s.system, s.table.launch j created⟩ :=
  ⟨inv.life, inv.ledger.launch looping used handling created, inv.fits.launch created⟩

theorem releaseLoop (inv : JoinInvariant punctual s) (looping : (s.table.joins j).looping = true)
    (used : (s.table.joins j).phase ≠ .unused)
    (released : (s.table.joins j).proceed = true →
      (s.table.joins j).phase = .begun ∨ (s.table.joins j).phase = .answered) :
    JoinInvariant punctual ⟨s.system, s.table.releaseLoop t j⟩ :=
  ⟨inv.life, inv.ledger.releaseLoop looping used released, inv.fits.releaseLoop⟩

theorem handling (inv : JoinInvariant punctual s) (handler : s.HandlerOf t j) :
    (s.table.joins j).phase = .begun ∨ (s.table.joins j).phase = .answered :=
  (inv.fits.running t _ j handler.1 handler.2.1).2

theorem runnerStep (inv : JoinInvariant punctual s) {action : Action}
    (enabled : s.Enabled (.runner action)) (contract : UserContract s (.runner action))
    (calm : punctual → NotOvertaken s (.runner action)) :
    JoinInvariant punctual (s.step (.runner action)) := by
  have running := enabled.1
  have leaves : s.Leaves action := enabled.2.1
  have permitted : s.system.Guard action := enabled.2.2.1
  -- `OnExit` and `Proceed` are the only steps here with which the table moves
  have still (legal : ProceedContract s.system action)
      (undisturbed : s.table.Undisturbed punctual s.system action)
      (same : s.afterRunner action = s.table) : JoinInvariant punctual (s.step (.runner action)) := by
    obtain ⟨life, fits⟩ := inv.undisturbed ⟨running, permitted⟩ legal undisturbed
    constructor
    · exact life
    · change Ledger (s.afterRunner action)
      rw [same]
      exact inv.ledger
    · change Matches punctual (s.afterRunner action) _
      rw [same]
      exact fits
  cases action with
  | onExit t r => exact inv.onExit running permitted
  | defer t r => exact absurd leaves id
  | proceed r => exact still contract.1 contract.2 rfl
  | dispatch t closure => exact still trivial calm rfl
  | runAsync | runAsyncHere | currentScheduler | enter | handleEvents | disableEvents
  | enableEvents | switchTo | enterGuard | enterAccess | leaveScope | raise | catchException
  | finish | callProceed | returnHandler | detach | setStatus | reset =>
      exact still trivial trivial rfl

theorem step (inv : JoinInvariant punctual s) {action : JoinAction T} (enabled : s.Enabled action)
    (contract : UserContract s action) (calm : punctual → NotOvertaken s action) :
    JoinInvariant punctual (s.step action) := by
  have guard := enabled.2.1
  have permitted := enabled.2.2.1
  cases action with
  | runner action => exact inv.runnerStep enabled contract calm
  | defer t r calls =>
      exact inv.defer guard.1 { inv.ledger with }
        (inv.fits.deferUser inv.life.phases guard.1 calls)
  | userCall t created =>
      obtain ⟨calls, code⟩ : ∃ calls, s.table.running t = .user calls := by
        change s.userHandler t = true at guard
        unfold JoinState.userHandler at guard
        split at guard
        next _ _ _ calls _ code => exact ⟨calls, code⟩
        · cases guard
      cases created with
      | none => exact ⟨inv.life, { inv.ledger with }, inv.fits.userCall code⟩
      | some created =>
          have made := inv.create permitted.1 (s.system.currentScheduler t)
          exact ⟨made.life, { made.ledger with }, made.fits.userCall code⟩
  | join t r j kind handlers =>
      have made := inv.newJoin (r := r) guard.2.1 kind handlers
      refine inv.defer guard.1.1 (made.ledger.deferJoin ?_ ?_)
        (made.fits.deferJoin made.life.phases guard.1.1 ?_ ?_) <;>
        simp [JoinTable.newJoin, JoinTable.setJoin]
  | launch t j created =>
      have handling := inv.handling guard.1
      refine (inv.create permitted.1 _).launch guard.1.2.2 ?_ (fun _ => handling) created
      rcases handling with phase | phase <;> simp [phase]
  | endLoop t j =>
      have handling := inv.handling guard.1
      refine inv.releaseLoop guard.1.2.2 ?_ (fun _ => handling)
      rcases handling with phase | phase <;> simp [phase]
  | makeWaiter t r j => exact inv.newJoin guard.2 .waiter 0
  | waiterRunAsync t r j created =>
      obtain ⟨-, kind, -, idle, looping⟩ := guard
      exact (inv.create permitted.1 _).launch looping (by simp [idle])
        (fun notWaiter => absurd kind notWaiter) created
  | waiterWait t r j =>
      obtain ⟨⟨runs, -⟩, kind, owner, idle, looping⟩ := guard
      by_cases unique : (s.table.joins j).holders = []
      · simpa [JoinState.step, JoinState.runnerAction, JoinState.afterTable, unique] using inv
      · have suspended := inv.deferJoin runs idle owner looping
        simpa [JoinState.step, JoinState.runnerAction, JoinState.afterTable, unique,
          System.step] using suspended
  | dropWaiter t r j =>
      obtain ⟨-, kind, -, idle, looping⟩ := guard
      have silenced : JoinInvariant punctual
          ⟨s.system, s.table.setJoin j { s.table.joins j with proceed := false }⟩ := by
        refine ⟨inv.life, inv.ledger.update (by simp [idle]) rfl rfl id ?_ ?_, ?_⟩
        · exact fun notWaiter => absurd kind notWaiter
        · simp
        · exact inv.fits.setJoin rfl rfl rfl (fun _ holds => .inr holds) id (Nat.le_refl _)
      refine silenced.releaseLoop ?_ ?_ ?_ <;> simp [JoinTable.setJoin, looping, idle]
  | childReturns t r value =>
      cases found : s.table.child r with
      | none =>
          have isChild := guard.2.1.1
          simp [found] at isChild
      | some child =>
          have returned : JoinInvariant punctual ⟨s.system, s.table.childReturns t r child value⟩ :=
            ⟨inv.life, inv.ledger.childReturns found value, inv.fits.childReturns found value⟩
          simpa [JoinState.step, JoinState.runnerAction, JoinState.afterTable, found] using returned
  | childThrows t r =>
      have catches : s.system.Enabled (.catchException t r) := ⟨enabled.1, permitted⟩
      obtain ⟨life, fits⟩ := inv.undisturbed catches trivial trivial
      cases found : s.table.child r with
      | none =>
          have isChild := guard.2.1.1
          simp [found] at isChild
      | some child =>
          have ended : JoinInvariant punctual ⟨s.system.step (.catchException t r),
              s.table.setChild r { child with ended := true }⟩ :=
            ⟨life, inv.ledger.setEnded found, fits.setEnded found⟩
          simpa [JoinState.step, JoinState.runnerAction, JoinState.afterTable, found] using ended
  | increment t j index =>
      exact ⟨inv.life, inv.ledger.increment guard.1, inv.fits.increment index⟩
  | callProceed t j =>
      obtain ⟨begun, -⟩ := inv.ledger.owed t j guard
      obtain ⟨holds, -⟩ := inv.fits.begun j begun
      exact ⟨LifeInvariant.rules.proceed inv.life holds trivial, inv.ledger.pay guard,
        inv.fits.pay begun⟩

theorem initial : JoinInvariant punctual ({} : JoinState T) where
  life := LifeInvariant.initial
  ledger := by constructor <;> simp [Join.claimed]
  fits := by constructor <;> simp

end JoinInvariant

end FlatAsync
