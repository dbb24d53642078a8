import FlatAsync.AsyncRunnerLifeCycle

/-!
# Tasks that have not yielded

A task changes its place only when its coroutine yields.  This file shows that a
task that has not done so yet is where it was created: its first closure waits in
the queue of that scheduler, or a thread of that scheduler executes it.
-/

namespace FlatAsync

/-- A task that has not yielded is still where it was created: its closure was
posted to the scheduler `home`, and its thread was dispatched by `home`. -/
structure Anchored (home : SchedulerId) (r : RunnerId) (s : System) : Prop where
  born : (s.runners r).stage ≠ .unborn
  closures : (s.runners r).yields = 0 → ∀ closure ∈ s.posted, closure.runner = r →
    closure.scheduler = home
  threads : (s.runners r).yields = 0 → ∀ t, (s.threads t).WorksFor r →
    (s.threads t).dispatchedBy = home

namespace Anchored

variable {home : SchedulerId} {r : RunnerId} {s : System} {t : ThreadId}

theorem keep (anchored : Anchored home r s) {after : System}
    (born : (after.runners r).stage ≠ .unborn)
    (yields : (after.runners r).yields = 0 → (s.runners r).yields = 0)
    (closures : (after.runners r).yields = 0 → ∀ closure ∈ after.posted, closure.runner = r →
      closure ∈ s.posted)
    (threads : (after.runners r).yields = 0 → ∀ t, (after.threads t).WorksFor r →
      (s.threads t).WorksFor r ∧ (after.threads t).dispatchedBy = (s.threads t).dispatchedBy) :
    Anchored home r after where
  born := born
  closures never closure waiting own :=
    anchored.closures (yields never) closure (closures never closure waiting own) own
  threads never t works := by
    obtain ⟨worked, from_⟩ := threads never t works
    rw [from_]
    exact anchored.threads (yields never) t worked

theorem create (life : LifeInvariant s) (fresh : (s.runners r).stage = .unborn) :
    Anchored home r (s.create r home) where
  born := by simp [System.create, System.schedule]
  closures _ closure waiting own := by
    simp only [System.create, System.schedule, System.setRunner_posted,
      System.setRunner_runners, Function.update_self, List.mem_append, List.mem_singleton]
      at waiting
    rcases waiting with old | rfl
    · exact absurd own ((life.phases.unreferenced_of_unborn fresh).1 closure old)
    · rfl
  threads _ t works := by
    have unheld := (life.phases.unreferenced_of_unborn fresh).2 t
    have held := works.role
    simp [System.create, System.schedule, unheld] at held

/-- A runner is updated and a thread goes on working for whom it worked. -/
theorem update (anchored : Anchored home r s) {q : RunnerId} {runner : AsyncRunner}
    {thread : Thread} (stage : (s.runners q).stage ≠ .unborn → runner.stage ≠ .unborn)
    (yields : (s.runners q).yields ≤ runner.yields)
    (works : thread.WorksFor r → (s.threads t).WorksFor r ∧
      thread.dispatchedBy = (s.threads t).dispatchedBy) :
    Anchored home r ((s.setRunner q runner).setThread t thread) := by
  apply anchored.keep
  · by_cases own : r = q
    · subst own
      simpa using stage anchored.born
    · simpa [own] using anchored.born
  · by_cases own : r = q
    · subst own
      simp only [System.setThread_runners, System.setRunner_runners, Function.update_self]
      omega
    · simp [own]
  · exact fun _ _ waiting _ => waiting
  · intro _ other
    by_cases same : other = t
    · subst same
      simpa using works
    · simp [same]

theorem setRunner (anchored : Anchored home r s) {q : RunnerId} {runner : AsyncRunner}
    (stage : (s.runners q).stage ≠ .unborn → runner.stage ≠ .unborn)
    (yields : (s.runners q).yields ≤ runner.yields) : Anchored home r (s.setRunner q runner) := by
  have updated : Anchored home r ((s.setRunner q runner).setThread 0 (s.threads 0)) :=
    anchored.update stage yields fun works => ⟨works, rfl⟩
  simpa [System.setThread, System.setRunner] using updated

theorem setThread (anchored : Anchored home r s) {thread : Thread}
    (works : thread.WorksFor r → (s.threads t).WorksFor r ∧
      thread.dispatchedBy = (s.threads t).dispatchedBy) :
    Anchored home r (s.setThread t thread) := by
  have updated : Anchored home r ((s.setRunner 0 (s.runners 0)).setThread t thread) :=
    anchored.update (fun born => born) (Nat.le_refl _) works
  simpa [System.setThread, System.setRunner] using updated

/-- A closure is posted for another task, or for one that has yielded. -/
theorem schedule (anchored : Anchored home r s) {q : RunnerId} {kind : ClosureKind}
    (elsewhere : q = r → (s.runners r).yields ≠ 0) : Anchored home r (s.schedule q kind) := by
  apply anchored.keep
  · exact anchored.born
  · exact fun never => never
  · intro never closure waiting own
    simp only [System.schedule, List.mem_append, List.mem_singleton] at waiting
    rcases waiting with old | rfl
    · exact old
    · exact absurd never (elsewhere own)
  · exact fun _ _ works => ⟨works, rfl⟩

theorem proceed (anchored : Anchored home r s) {q : RunnerId}
    (yielded : (s.runners q).yields ≠ 0) : Anchored home r (s.proceed q) := by
  have answered : Anchored home r (s.setRunner q { s.runners q with answer := .nobody }) :=
    anchored.setRunner (fun born => born) (Nat.le_refl _)
  apply answered.schedule
  rintro rfl
  simpa using yielded

/-- The thread takes up a closure, for this task from where it was created. -/
theorem onEnter (anchored : Anchored home r s) {closure : Closure}
    (waiting : closure ∈ s.posted) : Anchored home r (s.onEnter t closure) where
  born := anchored.born
  closures never other inside own :=
    anchored.closures never other (List.mem_of_mem_erase inside) own
  threads never other works := by
    by_cases same : other = t
    · subst same
      have own : closure.runner = r := by
        rcases works with body | ⟨kind, entered⟩
        · simp [System.onEnter] at body
        · simp only [System.onEnter, System.setThread_threads, Function.update_self,
            Pc.entered.injEq] at entered
          exact entered.1
      simpa [System.onEnter] using anchored.closures never closure waiting own
    · simp only [System.onEnter, System.setThread_threads, ne_eq, same, not_false_eq_true,
        Function.update_of_ne] at works ⊢
      exact anchored.threads never other works

/-- The coroutine of a runner that the thread has entered is started or resumed. -/
theorem enterBody (anchored : Anchored home r s) {q : RunnerId} {kind : ClosureKind}
    {runner : AsyncRunner} (entered : (s.threads t).pc = .entered q kind)
    (stage : (s.runners q).stage ≠ .unborn → runner.stage ≠ .unborn)
    (yields : (s.runners q).yields ≤ runner.yields) :
    Anchored home r ((s.setRunner q runner).moveTo t (.body q)) := by
  apply anchored.update stage yields
  intro works
  rcases works with body | ⟨other, again⟩
  · cases body
    exact ⟨.inr ⟨kind, entered⟩, rfl⟩
  · cases again

theorem leaveBody (anchored : Anchored home r s) {q : RunnerId} {runner : AsyncRunner} {pc : Pc}
    (stage : (s.runners q).stage ≠ .unborn → runner.stage ≠ .unborn)
    (yields : (s.runners q).yields ≤ runner.yields)
    (outside : (∃ q, pc = .exiting q) ∨ (∃ q handler, pc = .deferring q handler) ∨
      pc = .leaving) : Anchored home r ((s.setRunner q runner).moveTo t pc) := by
  apply anchored.update stage yields
  intro works
  rcases works with body | ⟨kind, entered⟩
  · rcases outside with ⟨q, rfl⟩ | ⟨q, handler, rfl⟩ | rfl <;> cases body
  · rcases outside with ⟨q, rfl⟩ | ⟨q, handler, rfl⟩ | rfl <;> cases entered

theorem rules : StepRules (fun _ => True) (fun _ _ => True)
    (fun s => LifeInvariant s ∧ Anchored home r s) where
  setRunner both same :=
    ⟨LifeInvariant.rules.setRunner both.1 same,
      both.2.setRunner (by simp [same.stage]) (by simp [same.yields])⟩
  raise both runs :=
    ⟨LifeInvariant.rules.raise both.1 runs,
      both.2.update (fun born => born) (Nat.le_refl _) fun works => ⟨works, rfl⟩⟩
  catchException both runs thrown :=
    ⟨LifeInvariant.rules.catchException both.1 runs thrown,
      both.2.update (fun born => born) (Nat.le_refl _) fun works => ⟨works, rfl⟩⟩
  terminate both :=
    ⟨LifeInvariant.rules.terminate both.1, ⟨both.2.born, both.2.closures, both.2.threads⟩⟩
  create {s q} both fresh scheduler := by
    have other : q ≠ r := by
      rintro rfl
      exact both.2.born fresh
    have created : Anchored home r
        (s.setRunner q { scheduler := scheduler, stage := .alive }) := by
      apply both.2.keep
      · simpa [other.symm] using both.2.born
      · simp [other.symm]
      · exact fun _ _ waiting _ => waiting
      · exact fun _ _ works => ⟨works, rfl⟩
    exact ⟨LifeInvariant.rules.create both.1 fresh scheduler,
      created.schedule fun own => absurd own other⟩
  onEnter both idle waiting _ :=
    ⟨LifeInvariant.rules.onEnter both.1 idle waiting trivial, both.2.onEnter waiting⟩
  start both entered :=
    ⟨LifeInvariant.rules.start both.1 entered,
      both.2.enterBody entered (fun born => born) (Nat.le_refl _)⟩
  wake both entered suspended :=
    ⟨LifeInvariant.rules.wake both.1 entered suspended,
      both.2.enterBody entered (fun born => born) (Nat.le_refl _)⟩
  notSuspended both entered stuck := by
    refine ⟨LifeInvariant.rules.notSuspended both.1 entered stuck, both.2.setThread ?_⟩
    intro works
    exact absurd works (Thread.not_worksFor (by simp) (by simp))
  yield both runs _ :=
    ⟨LifeInvariant.rules.yield both.1 runs trivial,
      both.2.leaveBody (fun born => born) (Nat.le_succ _) (.inl ⟨_, rfl⟩)⟩
  switchAway {s t q site dst} both runs target := by
    have moved : Anchored home r (s.setScheduler q dst) :=
      both.2.setRunner (fun born => born) (Nat.le_refl _)
    exact ⟨LifeInvariant.rules.switchAway both.1 runs target,
      moved.leaveBody (fun born => born) (Nat.le_succ _) (.inl ⟨_, rfl⟩)⟩
  failedSwitch {s t q site dst} both runs _ := by
    have moved : Anchored home r (s.setScheduler q dst) :=
      both.2.setRunner (fun born => born) (Nat.le_refl _)
    refine ⟨LifeInvariant.rules.failedSwitch both.1 runs trivial, ?_⟩
    cases site with
    | defer | switchTo dst | accessCtor source dst =>
        exact moved.update (fun born => born) (Nat.le_refl _) fun works => ⟨works, rfl⟩
    | accessDtor source => exact ⟨moved.born, moved.closures, moved.threads⟩
  finish both runs _ :=
    ⟨LifeInvariant.rules.finish both.1 runs trivial,
      both.2.leaveBody (fun born => born) (Nat.le_refl _) (.inl ⟨_, rfl⟩)⟩
  takeHandler both exits stored _ :=
    ⟨LifeInvariant.rules.takeHandler both.1 exits stored trivial,
      both.2.leaveBody (fun born => born) (Nat.le_refl _) (.inr (.inl ⟨_, _, rfl⟩))⟩
  delete both exits missing _ :=
    ⟨LifeInvariant.rules.delete both.1 exits missing trivial,
      both.2.leaveBody (fun _ => by simp) (Nat.le_refl _) (.inr (.inr rfl))⟩
  callProceed {s t q} both switches := by
    have plays : (s.threads t).pc.role q = some .switching := by simp [switches, Pc.role]
    obtain ⟨-, -, -, -, -, count⟩ := (both.1.phases q).held_of_role (t := t) plays
    have answered : Anchored home r (s.proceed q) :=
      both.2.proceed (count ▸ Nat.succ_ne_zero _)
    refine ⟨LifeInvariant.rules.callProceed both.1 switches, answered.setThread ?_⟩
    intro works
    exact absurd works (Thread.not_worksFor (by simp) (by simp))
  returnHandler both defers := by
    refine ⟨LifeInvariant.rules.returnHandler both.1 defers, both.2.setThread ?_⟩
    intro works
    exact absurd works (Thread.not_worksFor (by simp) (by simp))
  detach both leaves := by
    refine ⟨LifeInvariant.rules.detach both.1 leaves, both.2.setThread ?_⟩
    intro works
    exact absurd works (Thread.not_worksFor (by simp) (by simp))
  proceed {s q} both holds _ := by
    obtain ⟨-, -, -, -, count⟩ := (both.1.phases q).parked_of_answer holds
    exact ⟨LifeInvariant.rules.proceed both.1 holds trivial,
      both.2.proceed (count ▸ Nat.succ_ne_zero _)⟩

end Anchored

end FlatAsync
