import FlatAsync.EngineLauncher

/-!
# Runs of the process

However the process runs, the threads that execute something belong to a pool that
exists, and when `main` returns nothing is left.  If the launcher is not disturbed, the
tasks and the handler of the signal find the engine, the pools and the accessors.
-/

namespace FlatAsync

/-! ### The end of the process -/

/-- The statement does not return from `main`. -/
def Statement.staysInMain : Statement → Bool
  | .exit _ => false
  | _ => true

/-- What `main` returns, and what is left then.  `thrown` tells whether a statement has
thrown; a process that was told to serve returns success through `DeInit` only. -/
structure Parsed.Outcome (parsed : Parsed) (thrown : Prop) (held : Resources)
    (error : GeneralError) : Prop where
  gone : held.Gone
  rejected : parsed.accepted = false → error = .wrongCommandLine
  informed : parsed.accepted = true → parsed.config.Informs → error = .success
  failed : error = .internalError ↔ thrown
  served : parsed.accepted = true → ¬ parsed.config.Informs → ¬ thrown →
    error = .success ∧ held.guarded = true

inductive Process.Heads (parsed : Parsed) (thrown : Prop) (s : Process) : Prop
  | onTheWay (before : List Statement) (error : GeneralError)
      (split : s.statements = before ++ [.exit error])
      (inside : before.all Statement.staysInMain = true) (running : s.exitCode = none)
      (outcome : parsed.Outcome thrown (before.foldl Resources.after s.held) error)
      (serves : before.any Statement.mayThrow = true →
        parsed.accepted = true ∧ ¬ parsed.config.Informs)
  | arrived (error : GeneralError) (code : s.exitCode = some error)
      (outcome : parsed.Outcome thrown s.held error)

namespace Process

variable {parsed : Parsed} {thrown : Prop} {s : Process} {action : ProcessAction}

theorem heads_initial (parsed : Parsed) (hardware : Nat) :
    (parsed.process hardware).Heads parsed False := by
  by_cases rejected : parsed.accepted = false
  · simp only [Parsed.process, if_pos rejected]
    refine .onTheWay [] .wrongCommandLine rfl rfl rfl ?_
      fun throws => (Bool.false_ne_true throws).elim
    refine ⟨⟨fun _ => rfl, fun _ _ => rfl, rfl⟩, fun _ => rfl, ?_, by decide, ?_⟩ <;>
      simp [rejected]
  · have other : parsed.accepted = false → ∀ {error : GeneralError}, error = .wrongCommandLine :=
      fun same => absurd same rejected
    by_cases informs : parsed.config.Informs
    · simp only [Parsed.process, if_neg rejected, if_pos informs]
      refine .onTheWay Statement.destroyLauncher .success rfl rfl rfl ?_
        fun throws => (Bool.false_ne_true throws).elim
      refine ⟨⟨fun pool => ?_, fun _ _ => rfl, rfl⟩, fun same => other same, fun _ _ => rfl,
        by decide, fun _ serves => absurd informs serves⟩
      cases pool <;> rfl
    · have accepted : parsed.accepted = true := by simpa using rejected
      simp only [Parsed.process, if_neg rejected, if_neg informs]
      refine .onTheWay (Statement.run.dropLast) .success rfl rfl rfl ?_
        fun _ => ⟨accepted, informs⟩
      refine ⟨⟨fun pool => ?_, fun _ name => ?_, rfl⟩, fun same => other same, fun _ _ => rfl,
        by decide, fun _ _ _ => ⟨rfl, rfl⟩⟩
      · cases pool <;> rfl
      · cases name <;> rfl

/-- Whatever is there, the statements after an exception leave nothing. -/
theorem gone_unwinding (s : Process) : (s.unwinding.foldl Resources.after s.held).Gone := by
  have quiet : (if s.signals = .unset then [] else [Statement.destroySignals]).foldl
      Resources.after s.held = s.held := by
    split <;> rfl
  rw [unwinding, List.foldl_append, quiet]
  by_cases guarded : s.held.guarded = true
  · simp only [guarded, if_true]
    refine ⟨fun pool => ?_, fun _ name => ?_, rfl⟩
    · cases pool <;> rfl
    · cases name <;> rfl
  · simp only [guarded]
    refine ⟨fun pool => ?_, fun present => absurd present guarded, rfl⟩
    cases pool <;> rfl

theorem all_unwinding (s : Process) : s.unwinding.all Statement.staysInMain = true := by
  unfold unwinding
  split <;> split <;> rfl

private theorem any_unwinding (s : Process) : s.unwinding.any Statement.mayThrow = false := by
  unfold unwinding
  split <;> split <;> rfl

/-- The call of `Engine::Stop` leaves alone what belongs to the main thread. -/
theorem stopEngine_same (s : Process) (created : RunnerId) :
    (s.stopEngine created).statements = s.statements ∧ (s.stopEngine created).held = s.held ∧
      (s.stopEngine created).exitCode = s.exitCode := by
  unfold stopEngine
  split
  · exact ⟨rfl, rfl, rfl⟩
  · exact ⟨rfl, rfl, rfl⟩
  · split <;> exact ⟨rfl, rfl, rfl⟩

private theorem perform_exitCode {created : RunnerId} {statement : Statement}
    (stays : statement.staysInMain = true) :
    (s.perform created statement).exitCode = s.exitCode := by
  cases statement with
  | exit error => cases stays
  | _ => rfl

theorem Heads.step (heads : s.Heads parsed thrown) (enabled : s.Enabled action) :
    (s.step action).Heads parsed (thrown ∨ action = .throw) := by
  cases heads with
  | arrived error code => exact absurd (enabled.1.1.symm.trans code) (by simp)
  | onTheWay before error split inside running outcome serves =>
    cases action with
    | signal | beginHandler | tasks =>
        exact .onTheWay before error split inside running (by simpa [Process.step] using outcome)
          serves
    | stopEngine t created =>
        obtain ⟨statements, held, code⟩ := s.stopEngine_same created
        refine .onTheWay before error (statements.trans split) inside (code.trans running) ?_ serves
        simpa [Process.step, held] using outcome
    | throw =>
        have throws : before.any Statement.mayThrow = true := by
          have first := enabled.2
          cases before with
          | nil => simp [Guard, split, Statement.mayThrow] at first
          | cons statement rest =>
              have here : statement.mayThrow = true := by simpa [Guard, split] using first
              simp [here]
        obtain ⟨accepted, serving⟩ := serves throws
        refine .onTheWay s.unwinding .internalError rfl s.all_unwinding running ?_ ?_
        · exact ⟨s.gone_unwinding, by simp [accepted], fun _ informs => absurd informs serving,
            by simp, by simp⟩
        · simp [s.any_unwinding]
    | main created =>
        have same : (thrown ∨ ProcessAction.main created = .throw) = thrown := by simp
        rw [same]
        simp only [step, goOn, split]
        cases before with
        | nil =>
            exact .arrived error rfl outcome
        | cons statement rest =>
            obtain ⟨stays, within⟩ : statement.staysInMain = true ∧
                rest.all Statement.staysInMain = true := by
              simpa using inside
            simp only [List.cons_append]
            split
            · split
              · exact .onTheWay (statement :: rest) error split inside running outcome serves
              · refine .onTheWay rest error rfl within ((perform_exitCode stays).trans running)
                  outcome fun throws => serves ?_
                simp [throws]
            · exact .onTheWay (statement :: rest) error rfl inside running outcome serves

theorem Heads.run {actions : List ProcessAction} (heads : s.Heads parsed thrown)
    (legal : processSystem.Legal s actions) :
    (processSystem.run s actions).Heads parsed (thrown ∨ .throw ∈ actions) := by
  induction actions generalizing s thrown with
  | nil => simpa [ActionSystem.run] using heads
  | cons action actions ih =>
      have onward := ih (heads.step legal.1) legal.2
      have same : (thrown ∨ .throw ∈ action :: actions) =
          ((thrown ∨ action = .throw) ∨ .throw ∈ actions) := by
        simp [or_assoc, eq_comm]
      rwa [same]

/-! ### The threads of the pools -/

end Process

theorem CountedState.step_system (s : CountedState) (action : Action) :
    (s.step (.runner action)).system = s.system.step action := by
  cases action with
  | onExit t r =>
      simp only [CountedState.step]
      split <;> rfl
  | _ => rfl

/-- A thread destroys the members of a runner that it has just deleted. -/
theorem CountedState.step_destroying (s : CountedState) {action : Action} {t : ThreadId}
    (other : ∀ r, action ≠ .onExit t r) :
    (s.step (.runner action)).destroying t = s.destroying t := by
  cases action with
  | onExit u r =>
      simp only [CountedState.step]
      split
      · refine Function.update_of_ne ?_ _ _
        rintro rfl
        exact other r rfl
      · rfl
  | _ => rfl

namespace Process

variable {s : Process} {action : ProcessAction} {t : ThreadId}

/-- A thread that executes something belongs to a pool that exists. -/
def Staffed (s : Process) : Prop :=
  ∀ t, ¬ s.AtRest t → s.Employed t

private theorem atRest_tasks {tasks : CountedAction} (guard : s.counted.Guard tasks)
    (rest : s.AtRest t)
    (other : ∀ closure, tasks ≠ .runner (.dispatch t closure)) :
    (s.step (.tasks tasks)).AtRest t := by
  obtain ⟨idle, destroyed, unhandled⟩ := rest
  cases tasks with
  | runner action =>
      refine ⟨?_, ?_, unhandled⟩
      · have same := s.counted.step_system action
        simp only [step, same]
        exact System.idle_step guard.1 idle fun closure same => other closure (by rw [same])
      · refine (s.counted.step_destroying ?_).trans destroyed
        rintro r rfl
        cases idle.symm.trans guard.1
  | construct r => exact ⟨idle, destroyed, unhandled⟩
  | destroyMembers u =>
      refine ⟨idle, ?_, unhandled⟩
      by_cases own : t = u
      · simp [step, CountedState.step, own]
      · simpa [step, CountedState.step, own] using destroyed
  | waitAll => exact ⟨idle, destroyed, unhandled⟩

private theorem perform_atRest {created : RunnerId} {statement : Statement} (rest : s.AtRest t) :
    (s.perform created statement).AtRest t := by
  obtain ⟨idle, destroyed, unhandled⟩ := rest
  cases statement with
  | makeSignals | asyncWait => exact ⟨idle, destroyed, by simp [perform]⟩
  | destroySignals =>
      refine ⟨idle, destroyed, ?_⟩
      simp only [perform]
      split
      · simp
      · exact unhandled
  | _ => exact ⟨idle, destroyed, unhandled⟩

private theorem goOn_atRest {created : RunnerId} (rest : s.AtRest t) :
    (s.goOn created).AtRest t := by
  unfold goOn
  split
  · exact rest
  · split
    · split
      · exact rest
      · exact s.perform_atRest rest
    · exact rest

theorem Employed.keep {after : Process} (employed : s.Employed t)
    (hardware : after.hardware = s.hardware)
    (pools : ∀ pool, t ∈ s.threads pool → s.held.pools pool = true →
      after.held.pools pool = true) : after.Employed t := by
  have same : after.threads = s.threads := by
    unfold threads threadPoolSize
    rw [hardware]
  unfold Employed
  rw [same]
  exact employed.imp (fun main => ⟨pools .main main.2 main.1, main.2⟩)
    fun net => ⟨pools .net net.2 net.1, net.2⟩

private theorem perform_hardware {created : RunnerId} {statement : Statement} :
    (s.perform created statement).hardware = s.hardware := by
  cases statement <;> rfl

private theorem goOn_employed {created : RunnerId} (guard : s.Guard (.main created))
    (busy : ¬ s.AtRest t)
    (employed : s.Employed t) : (s.goOn created).Employed t := by
  unfold goOn
  split
  · exact employed
  next statement rest split =>
    split
    · split
      · exact employed
      · refine employed.keep perform_hardware fun pool member present => ?_
        cases statement with
        | makePool made =>
            by_cases own : pool = made
            · simp [Resources.after, own]
            · simpa [Resources.after, own] using present
        | resetPool gone =>
            by_cases own : pool = gone
            · subst own
              have ready : s.Ready created (.resetPool pool) := guard.2 _ (by simp [split])
              exact absurd (ready present t member) busy
            · simpa [Resources.after, own] using present
        | _ => exact present
    · exact employed

private theorem stopEngine_atRest {created : RunnerId} (rest : s.AtRest t) :
    (s.stopEngine created).AtRest t := by
  obtain ⟨idle, destroyed, unhandled⟩ := rest
  unfold stopEngine
  split
  · exact ⟨idle, destroyed, unhandled⟩
  · exact ⟨idle, destroyed, unhandled⟩
  · split <;> exact ⟨idle, destroyed, by simp [runAsync]⟩

private theorem stopEngine_hardware {created : RunnerId} :
    (s.stopEngine created).hardware = s.hardware := by
  unfold stopEngine
  split
  · rfl
  · rfl
  · split <;> rfl

theorem Staffed.step (staffed : s.Staffed) (enabled : s.Enabled action) :
    (s.step action).Staffed := by
  intro t busy
  cases action with
  | throw => exact staffed t busy
  | signal =>
      have waits : s.signals = .armed := enabled.2
      exact staffed t fun rest => busy ⟨rest.1, rest.2.1, by simp [Process.step]⟩
  | beginHandler u =>
      obtain ⟨-, pool, member, -⟩ := enabled.2
      by_cases own : t = u
      · subst own
        exact .inl ⟨pool, member⟩
      · refine staffed t fun rest => busy ⟨rest.1, rest.2.1, ?_⟩
        simp only [Process.step]
        split <;> simp [Ne.symm own]
  | stopEngine u created =>
      have before : s.Employed t := staffed t fun rest => busy (stopEngine_atRest rest)
      refine before.keep stopEngine_hardware fun pool _ present => ?_
      simp only [Process.step, (s.stopEngine_same created).2.1, present]
  | tasks tasks =>
      by_cases takes : ∃ closure, tasks = .runner (.dispatch t closure)
      · obtain ⟨closure, rfl⟩ := takes
        exact enabled.2.2.1
      · refine staffed t fun rest => busy (atRest_tasks enabled.2.1 rest ?_)
        exact fun closure same => takes ⟨closure, same⟩
  | main created =>
      have before : ¬ s.AtRest t := fun rest => busy (goOn_atRest rest)
      exact goOn_employed enabled.2 before (staffed t before)

end Process

/-- In every run of the process, whatever throws, whatever the tasks do and whenever a
signal arrives: a thread that executes something belongs to a pool that exists, and when
`main` returns there is no engine and no pool any more, no accessor is attached if `Init`
has succeeded, and the exit code tells an exception from a rejected command line and from
a process that has done what it was told. -/
theorem process_leaves_nothing (parsed : Parsed) (hardware : Nat) {actions : List ProcessAction}
    (legal : processSystem.Legal (parsed.process hardware) actions) :
    processSystem.EveryState Process.Staffed (parsed.process hardware) actions ∧
      ∀ error, (processSystem.run (parsed.process hardware) actions).exitCode = some error →
        parsed.Outcome (.throw ∈ actions)
          (processSystem.run (parsed.process hardware) actions).held error := by
  refine ⟨?_, fun error code => ?_⟩
  · refine ActionSystem.everyState_of_invariant
      (fun s action staffed enabled _ => staffed.step enabled) ?_ legal legal
    exact fun t busy => absurd ⟨rfl, rfl, by simp [Parsed.process]⟩ busy
  · have heads := (Process.heads_initial parsed hardware).run legal
    simp only [false_or] at heads
    cases heads with
    | onTheWay before last split inside running => cases running.symm.trans code
    | arrived last here outcome =>
        obtain rfl := Option.some.inj (here.symm.trans code)
        exact outcome

/-- `--port 9000` -/
def parsedPort : Parsed where
  accepted := true
  config := { port := 9000 }

/-- The engine is started, and registering the signals throws. -/
def signalsThrow : List ProcessAction :=
  List.replicate 10 (.main 0) ++ [.throw] ++ List.replicate 11 (.main 0)

theorem process_leaves_nothing_signalsThrow :
    processSystem.EveryState Process.Staffed (parsedPort.process 2) signalsThrow ∧
      parsedPort.Outcome (.throw ∈ signalsThrow)
        (processSystem.run (parsedPort.process 2) signalsThrow).held .internalError := by
  have legal : processSystem.Legal (parsedPort.process 2) signalsThrow := by decide
  obtain ⟨staffed, outcome⟩ := process_leaves_nothing parsedPort 2 legal
  exact ⟨staffed, outcome .internalError (by decide)⟩

/-! ### A launcher that is not disturbed -/

structure CountedState.Silent (s : CountedState) : Prop where
  counter : CounterInvariant s
  deleted : ∀ r ∈ s.created, (s.system.runners r).stage = .deleted
  quiet : ∀ t r, (s.system.threads t).pc ≠ .deferring r .callable
  destroyed : ∀ t, s.destroying t = none

namespace CountedState.Silent

variable {s : CountedState} {action : CountedAction}

theorem initial : Silent {} :=
  ⟨CounterInvariant.initial, by simp, by simp, by simp⟩

theorem dead (silent : Silent s) (r : RunnerId) : (s.system.runners r).stage ≠ .alive := by
  intro alive
  have created : r ∈ s.created := silent.counter.born r (by simp [alive])
  cases alive.symm.trans (silent.deleted r created)

theorem unexecuted (silent : Silent s) (t : ThreadId) : (s.system.threads t).pc.runner = none := by
  refine Option.eq_none_iff_forall_ne_some.mpr fun r => ?_
  exact silent.counter.life.phases.unexecuted (silent.dead r) (silent.quiet t r)

/-- Tasks that are over stay so as long as nobody creates another one. -/
theorem step (silent : Silent s) (enabled : s.Enabled action) (contract : CountedContract s action)
    (calm : ∀ r, action ≠ .construct r) : Silent (s.step action) := by
  have counter := silent.counter.step enabled contract
  cases action with
  | construct r => exact absurd rfl (calm r)
  | waitAll => exact silent
  | destroyMembers t =>
      refine ⟨counter, silent.deleted, silent.quiet, fun u => ?_⟩
      by_cases own : u = t
      · simp [CountedState.step, own]
      · simpa [CountedState.step, own] using silent.destroyed u
  | runner action =>
      obtain ⟨running, guard, ready⟩ := enabled
      have created : (s.step (.runner action)).created = s.created := by
        cases action with
        | onExit t r =>
            simp only [CountedState.step]
            split <;> rfl
        | _ => rfl
      have stays (t r) (exits : action = .onExit t r) : False := by
        subst exits
        exact silent.dead r (silent.counter.life.phases.exiting guard).1
      refine ⟨counter, fun r member => ?_, fun t r defers => ?_, fun t => ?_⟩
      · rw [created] at member
        have deleted := silent.deleted r member
        rw [s.step_system, System.step_stage, if_neg, deleted, ite_self]
        intro creates
        cases deleted.symm.trans (CounterInvariant.ready_creates guard ready creates).2
      · rw [s.step_system] at defers
        rcases System.step_deferring defers with before | exits
        · exact silent.quiet t r before
        · exact stays t r exits
      · rw [s.step_destroying fun r exits => stays t r exits]
        exact silent.destroyed t

end CountedState.Silent

namespace Statement

def prepares : Statement → Bool
  | .makePool _ | .attach _ | .makeEngine | .initEngine | .makeScopeGuard => true
  | _ => false

/-- The statements between the start of the engine and `WaitAll`. -/
def watches : Statement → Bool
  | .makeSignals | .asyncWait => true
  | _ => false

/-- The statements after `WaitAll`. -/
def leaves : Statement → Bool
  | .destroySignals | .resetEngine | .detach _ | .resetPool _ | .exit _ => true
  | _ => false

end Statement

namespace Resources

/-- The assertions of the statements hold when they are executed one after the other. -/
def Allows : Resources → List Statement → Prop
  | _, [] => True
  | held, statement :: rest => held.Asserts statement ∧ (held.after statement).Allows rest

end Resources

namespace Process

variable (s : Process)

/-- The thread executes code of a task, its destruction or the handler of the signal. -/
def Executes (t : ThreadId) : Prop :=
  (s.counted.system.threads t).pc.runner ≠ none ∨ s.counted.destroying t ≠ none ∨
    s.signals = .handling t

/-- A thread that executes something finds the engine, the pools and the accessors, no
assertion has failed, and nobody has called a member of an engine that does not exist. -/
def Safe : Prop :=
  (∀ t, s.Executes t → s.held.Alive) ∧ s.asserted = false ∧ s.undefined = false

/-- How the launcher is not disturbed: nothing throws once the engine has been started, no
signal arrives when `WaitAll` has returned, and when it returns the handler of the signal
is not under way, and the counter tells the truth. -/
def Undisturbed : ProcessAction → Prop
  | .main _ => s.statements.head? = some .waitAll →
      WaitAllUndisturbed s.counted .waitAll ∧
        (s.counted.count = 0 → s.signals ≠ .queued false ∧ ∀ t, s.signals ≠ .handling t)
  | .throw => .startEngine ∈ s.statements
  | .signal => .waitAll ∈ s.statements
  | .beginHandler _ | .stopEngine .. => True
  | .tasks action => CountedContract s.counted action

/-- Where the main thread is, and what the others can do meanwhile. -/
inductive Phase : Prop
  | preparing (before : List Statement) (split : s.statements = before ++ Statement.serve)
      (prepares : before.all Statement.prepares = true) (allowed : s.held.Allows before)
      (alive : (before.foldl Resources.after s.held).Alive) (silent : s.counted.Silent)
      (unset : s.signals = .unset)
  | serving (before : List Statement)
      (split : s.statements = before ++ .waitAll :: Statement.leave)
      (watches : before.all Statement.watches = true) (alive : s.held.Alive)
      (counter : CounterInvariant s.counted)
  | leaving (leaves : s.statements.all Statement.leaves = true) (silent : s.counted.Silent)
      (calm : s.signals ≠ .queued false) (unhandled : ∀ t, s.signals ≠ .handling t)

variable {s}

theorem goOn_eq {created : RunnerId} {statement : Statement} {rest : List Statement}
    (split : s.statements = statement :: rest) (asserts : s.held.Asserts statement)
    (other : statement ≠ .waitAll) :
    s.goOn created = { s.perform created statement with
      statements := rest
      held := s.held.after statement } := by
  simp only [goOn, split, if_pos asserts]
  exact if_neg fun waits => other waits.1

theorem perform_flags {created : RunnerId} {statement : Statement} :
    (s.perform created statement).asserted = s.asserted ∧
      (s.perform created statement).undefined = s.undefined := by
  cases statement <;> exact ⟨rfl, rfl⟩

private theorem perform_prepares {created : RunnerId} {statement : Statement}
    (prepares : statement.prepares = true) :
    (s.perform created statement).counted = s.counted ∧
      (s.perform created statement).signals = s.signals := by
  cases statement with
  | makePool | attach | makeEngine | initEngine | makeScopeGuard => exact ⟨rfl, rfl⟩
  | _ => cases prepares

private theorem perform_watches {created : RunnerId} {statement : Statement}
    (watches : statement.watches = true) :
    (s.perform created statement).counted = s.counted ∧ s.held.after statement = s.held := by
  cases statement with
  | makeSignals | asyncWait => exact ⟨rfl, rfl⟩
  | _ => cases watches

private theorem perform_leaves {created : RunnerId} {statement : Statement}
    (leaves : statement.leaves = true) :
    (s.perform created statement).counted = s.counted ∧
      ((s.perform created statement).signals = s.signals ∨
        (s.perform created statement).signals = .queued true) := by
  cases statement with
  | destroySignals =>
      refine ⟨rfl, ?_⟩
      simp only [perform]
      split
      · exact .inr rfl
      · exact .inl rfl
  | resetEngine | detach | resetPool | exit => exact ⟨rfl, .inl rfl⟩
  | _ => cases leaves

end Process

theorem Resources.asserts_watches {held : Resources} {statement : Statement} (alive : held.Alive)
    (watches : statement.watches = true) : held.Asserts statement := by
  cases statement with
  | makeSignals =>
      have attached := alive.accessors .defaultIoService
      exact Option.isSome_iff_exists.mpr ⟨_, attached⟩
  | asyncWait => trivial
  | _ => cases watches

theorem Resources.asserts_leaves {held : Resources} {statement : Statement}
    (leaves : statement.leaves = true) : held.Asserts statement := by
  cases statement with
  | destroySignals | resetEngine | detach | resetPool | exit => trivial
  | _ => cases leaves

theorem Statement.ne_waitAll {statement : Statement} (kind : Statement → Bool)
    (here : kind statement = true) (other : kind .waitAll = false) : statement ≠ .waitAll := by
  rintro rfl
  cases here.symm.trans other

namespace Process

namespace Phase

variable {s : Process} {action : ProcessAction}

theorem idle (silent : s.counted.Silent) (unhandled : ∀ t, s.signals ≠ .handling t)
    (t : ThreadId) : ¬ s.Executes t := by
  rintro (executes | destroys | handles)
  · exact executes (silent.unexecuted t)
  · exact destroys (silent.destroyed t)
  · exact unhandled t handles

theorem executes (phase : s.Phase) {t : ThreadId} (executes : s.Executes t) : s.held.Alive := by
  cases phase with
  | preparing before split prepares allowed alive silent unset =>
      exact absurd executes (idle silent (by simp [unset]) t)
  | serving before split watches alive counter => exact alive
  | leaving leaves silent calm unhandled => exact absurd executes (idle silent unhandled t)

private theorem not_construct (silent : s.counted.Silent) {tasks : CountedAction}
    (permits : s.Permits tasks) (r : RunnerId) : tasks ≠ .construct r := by
  rintro rfl
  obtain ⟨t, -, executes⟩ := permits
  simp [silent.unexecuted t] at executes

private theorem counter_runAsync {created : RunnerId} (counter : CounterInvariant s.counted)
    (running : s.counted.system.terminated = false) (fresh : created ∉ s.counted.created) :
    CounterInvariant (s.runAsync created).counted := by
  have unborn : (s.counted.system.runners created).stage = .unborn := by
    by_contra born
    exact fresh (counter.born created born)
  have enabled : (s.counted.construct created).Enabled
      (.runner (.runAsync created mainSequentialScheduler)) :=
    ⟨running, unborn, List.mem_cons_self⟩
  exact (counter.construct fresh).step enabled trivial

theorem initial (parsed : Parsed) (hardware : Nat) : (parsed.process hardware).Phase := by
  have nothing : (parsed.process hardware).counted.Silent := CountedState.Silent.initial
  by_cases rejected : parsed.accepted = false
  · refine .leaving ?_ nothing (by simp [Parsed.process]) (by simp [Parsed.process])
    simp only [Parsed.process, if_pos rejected]
    rfl
  · by_cases informs : parsed.config.Informs
    · refine .leaving ?_ nothing (by simp [Parsed.process]) (by simp [Parsed.process])
      simp only [Parsed.process, if_neg rejected, if_pos informs]
      rfl
    · refine .preparing (Statement.init ++ [.makeScopeGuard]) ?_ rfl ?_ ?_ nothing rfl
      · simp only [Parsed.process, if_neg rejected, if_neg informs]
        rfl
      · exact ⟨trivial, trivial, trivial, trivial, trivial, trivial, rfl, rfl, trivial, trivial⟩
      · refine ⟨fun pool => ?_, fun name => ?_, rfl⟩
        · cases pool <;> rfl
        · cases name <;> rfl

theorem silent_of_zero (counter : CounterInvariant s.counted) (zero : s.counted.count = 0)
    (calm : WaitAllUndisturbed s.counted .waitAll) : s.counted.Silent := by
  obtain ⟨destroyed, quiet, bounded⟩ := calm rfl zero
  exact ⟨counter, fun r => counter.deleted_of_zero zero bounded, quiet, destroyed⟩

/-- The main thread goes from one phase to the next, and its assertions hold. -/
theorem main {created : RunnerId} (phase : s.Phase) (enabled : s.Enabled (.main created))
    (calm : s.Undisturbed (.main created)) :
    (s.goOn created).Phase ∧ (s.goOn created).asserted = s.asserted ∧
      (s.goOn created).undefined = s.undefined := by
  obtain ⟨⟨-, -, -, running⟩, guard⟩ := enabled
  cases phase with
  | preparing before split prepares allowed alive silent unset =>
      cases before with
      | nil =>
          have asserts : s.held.Asserts .startEngine := alive.engine
          have fresh : s.Ready created .startEngine :=
            guard.2 _ (by simp [split, Statement.serve])
          rw [goOn_eq split asserts (by simp)]
          refine ⟨.serving [.makeSignals, .asyncWait] rfl rfl alive ?_, rfl, rfl⟩
          exact counter_runAsync silent.counter running fresh
      | cons statement rest =>
          obtain ⟨here, within⟩ : statement.prepares = true ∧
              rest.all Statement.prepares = true := by
            simpa using prepares
          rw [goOn_eq split allowed.1 (Statement.ne_waitAll Statement.prepares here rfl)]
          have same : (s.perform created statement).counted = s.counted ∧
              (s.perform created statement).signals = s.signals := perform_prepares here
          have kept : (s.perform created statement).counted.Silent := by rwa [same.1]
          exact ⟨.preparing rest rfl within allowed.2 alive kept (same.2.trans unset),
            perform_flags⟩
  | serving before split watches alive counter =>
      cases before with
      | nil =>
          have next : s.statements.head? = some .waitAll := by simp [split]
          obtain ⟨undisturbed, unhandled⟩ := calm next
          by_cases zero : s.counted.count = 0
          · have returns : s.goOn created = { s with statements := Statement.leave } := by
              simp [goOn, split, Resources.Asserts, zero, perform, Resources.after]
            rw [returns]
            refine ⟨.leaving rfl ?_ (unhandled zero).1 (unhandled zero).2, rfl, rfl⟩
            exact silent_of_zero counter zero undisturbed
          · have waits : s.goOn created = s := by
              simp only [goOn, split, List.nil_append]
              rw [if_pos (show s.held.Asserts .waitAll from trivial), if_pos ⟨trivial, zero⟩]
            rw [waits]
            exact ⟨.serving [] split watches alive counter, rfl, rfl⟩
      | cons statement rest =>
          obtain ⟨here, within⟩ : statement.watches = true ∧
              rest.all Statement.watches = true := by
            simpa using watches
          rw [goOn_eq split (Resources.asserts_watches alive here)
            (Statement.ne_waitAll Statement.watches here rfl)]
          have same : (s.perform created statement).counted = s.counted ∧
              s.held.after statement = s.held := perform_watches here
          have kept : CounterInvariant (s.perform created statement).counted := by rwa [same.1]
          have still : (s.held.after statement).Alive := by rwa [same.2]
          exact ⟨.serving rest rfl within still kept, perform_flags⟩
  | leaving leaves silent calm unhandled =>
      cases split : s.statements with
      | nil => exact absurd split guard.1
      | cons statement rest =>
          obtain ⟨here, within⟩ : statement.leaves = true ∧
              rest.all Statement.leaves = true := by
            simpa [split] using leaves
          rw [goOn_eq split (Resources.asserts_leaves here)
            (Statement.ne_waitAll Statement.leaves here rfl)]
          have same : (s.perform created statement).counted = s.counted ∧
              ((s.perform created statement).signals = s.signals ∨
                (s.perform created statement).signals = .queued true) := perform_leaves here
          obtain ⟨counted, signals⟩ := same
          have kept : (s.perform created statement).counted.Silent := by rwa [counted]
          refine ⟨.leaving within kept ?_ ?_, perform_flags⟩
          · rcases signals with same | aborted
            · exact fun queued => calm (same.symm.trans queued)
            · exact fun queued => by cases aborted.symm.trans queued
          · rcases signals with same | aborted
            · exact fun t handles => unhandled t (same.symm.trans handles)
            · exact fun t handles => by cases aborted.symm.trans handles

theorem stopEngine {t : ThreadId} {created : RunnerId} (phase : s.Phase)
    (enabled : s.Enabled (.stopEngine t created)) :
    (s.stopEngine created).Phase ∧ (s.stopEngine created).asserted = s.asserted ∧
      (s.stopEngine created).undefined = s.undefined := by
  obtain ⟨⟨-, -, -, running⟩, handles, fresh⟩ := enabled
  cases phase with
  | preparing before split prepares allowed alive silent unset =>
      cases handles.symm.trans unset
  | leaving leaves silent calm unhandled => exact absurd handles (unhandled t)
  | serving before split watches alive counter =>
      simp only [Process.stopEngine, alive.engine]
      split
      · exact ⟨.serving before split watches alive counter, rfl, rfl⟩
      · refine ⟨.serving before split watches alive ?_, rfl, rfl⟩
        exact counter_runAsync counter running fresh

theorem tasks {tasks : CountedAction} (phase : s.Phase) (enabled : s.Enabled (.tasks tasks))
    (contract : CountedContract s.counted tasks) : (s.step (.tasks tasks)).Phase := by
  obtain ⟨⟨-, -, -, running⟩, guard, permits⟩ := enabled
  cases phase with
  | preparing before split prepares allowed alive silent unset =>
      refine .preparing before split prepares allowed alive ?_ unset
      exact silent.step ⟨running, guard⟩ contract (not_construct silent permits)
  | serving before split watches alive counter =>
      exact .serving before split watches alive (counter.step ⟨running, guard⟩ contract)
  | leaving leaves silent calm unhandled =>
      refine .leaving leaves ?_ calm unhandled
      exact silent.step ⟨running, guard⟩ contract (not_construct silent permits)

private theorem not_mem_leaves {statements : List Statement} {statement : Statement}
    (leaves : statements.all Statement.leaves = true) (other : statement.leaves = false) :
    statement ∉ statements := by
  intro member
  have here := List.all_eq_true.mp leaves statement member
  cases here.symm.trans other

private theorem leaves_unwinding (s : Process) :
    (s.unwinding ++ [Statement.exit .internalError]).all Statement.leaves = true := by
  unfold unwinding
  split <;> split <;> rfl

theorem step (phase : s.Phase) (enabled : s.Enabled action) (calm : s.Undisturbed action) :
    (s.step action).Phase := by
  cases action with
  | main created => exact (phase.main enabled calm).1
  | stopEngine t created => exact (phase.stopEngine enabled).1
  | tasks tasks => exact phase.tasks enabled calm
  | throw =>
      have ahead : .startEngine ∈ s.statements := calm
      cases phase with
      | preparing before split prepares allowed alive silent unset =>
          exact .leaving (leaves_unwinding s) silent (by simp [Process.step, unset])
            (by simp [Process.step, unset])
      | serving before split watches alive counter =>
          rw [split] at ahead
          have before : .startEngine ∈ before := by
            simpa [Statement.leave, Statement.deInit, Statement.destroyLauncher] using ahead
          cases List.all_eq_true.mp watches _ before
      | leaving leaves silent calm unhandled => exact absurd ahead (not_mem_leaves leaves rfl)
  | signal =>
      have armed : s.signals = .armed := enabled.2
      have ahead : .waitAll ∈ s.statements := calm
      cases phase with
      | preparing before split prepares allowed alive silent unset => cases armed.symm.trans unset
      | serving before split watches alive counter =>
          exact .serving before split watches alive counter
      | leaving leaves silent calm unhandled => exact absurd ahead (not_mem_leaves leaves rfl)
  | beginHandler t =>
      obtain ⟨queued, -⟩ := enabled.2
      cases phase with
      | preparing before split prepares allowed alive silent unset => simp [unset] at queued
      | serving before split watches alive counter =>
          exact .serving before split watches alive counter
      | leaving leaves silent calm unhandled =>
          have aborted : s.signals = .queued true := queued.resolve_left calm
          exact .leaving leaves silent (by simp [Process.step, aborted])
            (by simp [Process.step, aborted])

/-- No step fails an assertion of the launcher or calls a member of an engine that does not
exist. -/
theorem flags (phase : s.Phase) (enabled : s.Enabled action) (calm : s.Undisturbed action) :
    (s.step action).asserted = s.asserted ∧ (s.step action).undefined = s.undefined := by
  cases action with
  | main created => exact (phase.main enabled calm).2
  | stopEngine t created => exact (phase.stopEngine enabled).2
  | throw | signal | beginHandler | tasks => exact ⟨rfl, rfl⟩

end Phase

end Process

/-- If the launcher is not disturbed, every thread that executes a task, its destruction or
the handler of the signal finds the engine, the pools and the accessors, no assertion of the
launcher fails, and the handler of the signal never calls an engine that does not exist. -/
theorem process_objects_live (parsed : Parsed) (hardware : Nat) {actions : List ProcessAction}
    (legal : processSystem.Legal (parsed.process hardware) actions)
    (calm : processSystem.EveryStep Process.Undisturbed (parsed.process hardware) actions) :
    processSystem.EveryState Process.Safe (parsed.process hardware) actions := by
  have states : processSystem.EveryState
      (fun s => s.Phase ∧ s.asserted = false ∧ s.undefined = false)
      (parsed.process hardware) actions := by
    refine ActionSystem.everyState_of_invariant (fun s action inv enabled met => ?_)
      ⟨Process.Phase.initial parsed hardware, rfl, rfl⟩ legal calm
    have flags := inv.1.flags enabled met
    exact ⟨inv.1.step enabled met, flags.1.trans inv.2.1, flags.2.trans inv.2.2⟩
  exact states.imp fun s inv => ⟨fun t executes => inv.1.executes executes, inv.2⟩

/-- Nothing disturbs a step that does not return from `WaitAll`. -/
def Process.Ordinary (s : Process) : ProcessAction → Prop
  | .main _ => s.statements.head? = some .waitAll → s.counted.count ≠ 0
  | .throw => .startEngine ∈ s.statements
  | .signal => .waitAll ∈ s.statements
  | .beginHandler _ | .stopEngine .. => True
  | .tasks action => CountedContract s.counted action

instance (s : Process) : DecidablePred s.Ordinary
  | .main _ => inferInstanceAs (Decidable (_ → _))
  | .throw | .signal => inferInstanceAs (Decidable (_ ∈ _))
  | .beginHandler _ | .stopEngine .. => inferInstanceAs (Decidable True)
  | .tasks action => inferInstanceAs (Decidable (CountedContract s.counted action))

theorem Process.Ordinary.undisturbed {s : Process} {action : ProcessAction}
    (ordinary : s.Ordinary action) : s.Undisturbed action := by
  cases action with
  | main created =>
      intro returns
      have waits := ordinary returns
      exact ⟨fun _ zero => absurd zero waits, fun zero => absurd zero waits⟩
  | _ => exact ordinary

/-- The engine is started; its task creates a second one, which waits until the handler of
a signal has stopped the engine. -/
def stoppedBySignal : List ProcessAction :=
  List.replicate 13 (.main 0) ++
  [.tasks (.runner (.dispatch 0 ⟨.start, 0, 0⟩)), .tasks (.runner (.enter 0 0 .start)),
    .tasks (.construct 1), .tasks (.runner (.runAsync 1 0)), .tasks (.runner (.finish 0 0)),
    .tasks (.runner (.onExit 0 0)), .tasks (.destroyMembers 0), .tasks (.runner (.detach 0)),
    .tasks (.runner (.dispatch 1 ⟨.start, 1, 0⟩)), .tasks (.runner (.enter 1 1 .start)),
    .tasks (.runner (.defer 1 1)), .tasks (.runner (.onExit 1 1)),
    .tasks (.runner (.returnHandler 1 1)), .tasks (.runner (.detach 1)), .signal,
    .beginHandler 0, .stopEngine 0 2, .tasks (.runner (.dispatch 1 ⟨.start, 2, 0⟩)),
    .tasks (.runner (.enter 1 2 .start)), .tasks (.runner (.finish 1 2)),
    .tasks (.runner (.onExit 1 2)), .tasks (.destroyMembers 1), .tasks (.runner (.detach 1)),
    .tasks (.runner (.proceed 1)), .tasks (.runner (.dispatch 0 ⟨.proceed, 1, 0⟩)),
    .tasks (.runner (.enter 0 1 .proceed)), .tasks (.runner (.finish 0 1)),
    .tasks (.runner (.onExit 0 1)), .tasks (.destroyMembers 0), .tasks (.runner (.detach 0))]

private theorem undisturbed_stoppedBySignal :
    processSystem.EveryStep Process.Undisturbed (parsedPort.process 2)
      (stoppedBySignal ++ List.replicate 13 (.main 0)) := by
  have handled : (processSystem.run (parsedPort.process 2) stoppedBySignal).signals = .done := by
    decide
  refine ActionSystem.everyStep_append.mpr ⟨?_, fun _ => ⟨?_, fun _ => ?_⟩, ?_⟩
  · have ordinary : processSystem.EveryStep Process.Ordinary (parsedPort.process 2)
        stoppedBySignal := by decide
    exact ordinary.imp fun _ _ ordinary => ordinary.undisturbed
  · refine fun _ _ => ⟨fun t => ?_, fun t r => ?_, by decide⟩
    · match t with
      | 0 | 1 => decide
      | t + 2 => rfl
    · match t with
      | 0 | 1 => exact nofun
      | t + 2 => exact nofun
  · simp [handled]
  · have ordinary : processSystem.EveryStep Process.Ordinary
        ((processSystem.run (parsedPort.process 2) stoppedBySignal).step (.main 0))
        (List.replicate 12 (.main 0)) := by decide
    exact ordinary.imp fun _ _ ordinary => ordinary.undisturbed

theorem process_objects_live_stoppedBySignal :
    processSystem.EveryState Process.Safe (parsedPort.process 2)
      (stoppedBySignal ++ List.replicate 13 (.main 0)) :=
  process_objects_live parsedPort 2 (by decide) undisturbed_stoppedBySignal

/-- The task of the engine ends at once, as when the port is taken.  The signal arrives
when `WaitAll` has returned, and its handler has begun when `DeInit` destroys the engine. -/
def signalTooLate : List ProcessAction :=
  List.replicate 13 (.main 0) ++
  [.tasks (.runner (.dispatch 0 ⟨.start, 0, 0⟩)), .tasks (.runner (.enter 0 0 .start)),
    .tasks (.runner (.finish 0 0)), .tasks (.runner (.onExit 0 0)), .tasks (.destroyMembers 0),
    .tasks (.runner (.detach 0)), .main 0, .signal, .beginHandler 0, .main 0, .main 0,
    .stopEngine 0 1]

example : processSystem.Legal (parsedPort.process 2) signalTooLate ∧
    (processSystem.run (parsedPort.process 2) signalTooLate).undefined = true := by
  decide

end FlatAsync
