import FlatAsync.RunnerCoroutines
import FlatAsync.SequentialScheduler
import FlatAsync.WaitAll

/-!
# What a step leaves alone of other tasks

A step of the runner system is about one task.  The records, the posted closures and
the threads of all other tasks stay as they are, and the closures of a strand are taken
in the order in which they were posted.
-/

namespace FlatAsync

/-- The task a step is about, also if it only takes up its closure. -/
def Action.subject (action : Action) : Option RunnerId :=
  match action with
  | .dispatch _ closure => some closure.runner
  | other => other.runner

theorem Action.subject_of_runner {action : Action} {r : RunnerId} (own : action.runner = some r) :
    action.subject = some r := by
  cases action <;> first | exact own | cases own

namespace System

variable {s : System} {t : ThreadId} {r : RunnerId} {site : CallSite} {dst : SchedulerId}

/-! ### Posted closures -/

private theorem escape_posted : (s.escape t r site).posted = s.posted := by
  cases site <;> rfl

private theorem returnFrom_posted : (s.returnFrom r site).posted = s.posted := by
  cases site <;> rfl

private theorem defer_posted {handler : DeferHandler} :
    (s.defer t r site handler).posted = s.posted := by
  unfold defer
  split
  · exact escape_posted
  · rfl

private theorem switchTo_posted : (s.switchTo t r site dst).posted = s.posted := by
  unfold switchTo
  split
  · exact returnFrom_posted
  · exact defer_posted

private theorem leaveScope_posted : (s.leaveScope t r).posted = s.posted := by
  unfold leaveScope
  split
  · rfl
  · unfold destroyGuard
    split <;> rfl
  · exact switchTo_posted

private theorem resume_posted : (s.resume t r).posted = s.posted := by
  unfold resume
  split
  · unfold afterYield
    split
    · exact escape_posted
    · exact returnFrom_posted
  · rfl

/-- Closures are posted by the constructor of a runner and by `Proceed`, and leave the
queue when a thread takes them up. -/
theorem step_posted (s : System) (action : Action) :
    (s.step action).posted =
      match action with
      | .runAsync created dst => s.posted ++ [⟨.start, created, dst⟩]
      | .runAsyncHere t created => s.posted ++ [⟨.start, created, s.currentScheduler t⟩]
      | .dispatch _ closure => s.posted.erase closure
      | .callProceed _ r | .proceed r => s.posted ++ [⟨.proceed, r, (s.runners r).scheduler⟩]
      | _ => s.posted := by
  cases action with
  | runAsync | runAsyncHere | callProceed | proceed =>
      simp [step, create, System.proceed, schedule]
  | dispatch => rfl
  | enter u q kind =>
      cases kind with
      | start => rfl
      | proceed => exact resume_posted
  | handleEvents =>
      simp only [step]
      split <;> rfl
  | disableEvents =>
      simp only [step, disableEvents]
      split <;> rfl
  | enableEvents =>
      simp only [step, enableEvents]
      split <;> rfl
  | enterGuard =>
      simp only [step, makeGuard]
      split <;> rfl
  | defer => exact defer_posted
  | switchTo | enterAccess => exact switchTo_posted
  | leaveScope => exact leaveScope_posted
  | onExit =>
      simp only [step, onExit]
      split <;> rfl
  | setStatus =>
      simp only [step, setStatus]
      split <;> rfl
  | currentScheduler | raise | catchException | finish | returnHandler | detach | reset => rfl

/-! ### Places of threads -/

private theorem leaveScope_pc (inside : (s.threads t).pc = .body r) :
    ((s.leaveScope t r).threads t).pc = .body r ∨
      ((s.leaveScope t r).threads t).pc = .exiting r := by
  unfold leaveScope
  split
  · exact .inl inside
  · unfold destroyGuard
    split <;> exact .inl inside
  · rcases switchTo_pc with same | exits
    · exact .inl (same.trans inside)
    · exact .inr exits

/-- The thread of a body stays in it or leaves it for `OnExit`. -/
theorem body_step {action : Action} (own : action.thread = some t)
    (inside : (s.threads t).pc = .body r) (guard : s.Guard action) :
    ((s.step action).threads t).pc = .body r ∨ ((s.step action).threads t).pc = .exiting r := by
  have stays {q : RunnerId} (guard : (s.threads t).pc = .body q) : q = r := by
    rw [inside] at guard
    exact (Pc.body.inj guard).symm
  cases action with
  | runAsync | proceed | setStatus | reset => cases own
  | runAsyncHere u q | currentScheduler u =>
      obtain rfl := Option.some.inj own
      exact .inl inside
  | dispatch u closure =>
      obtain rfl := Option.some.inj own
      cases inside.symm.trans guard.1
  | enter u q | onExit u q | callProceed u q | returnHandler u q | detach u =>
      obtain rfl := Option.some.inj own
      cases inside.symm.trans guard
  | handleEvents u q | disableEvents u q | enableEvents u q | enterGuard u q | raise u q =>
      obtain rfl := Option.some.inj own
      refine .inl ((s.stays_of_events (t := u) (r := q) ?_).2.trans inside)
      simp
  | catchException u q =>
      obtain rfl := Option.some.inj own
      exact .inl (by simpa [step, System.catchException] using inside)
  | defer u q =>
      obtain rfl := Option.some.inj own
      obtain rfl := stays guard
      rcases defer_pc with same | exits
      · exact .inl (same.trans inside)
      · exact .inr exits
  | switchTo u q dst | enterAccess u q dst =>
      obtain rfl := Option.some.inj own
      obtain rfl := stays guard
      rcases switchTo_pc with same | exits
      · exact .inl (same.trans inside)
      · exact .inr exits
  | leaveScope u q =>
      obtain rfl := Option.some.inj own
      obtain rfl := stays guard.1
      exact leaveScope_pc inside
  | finish u q =>
      obtain rfl := Option.some.inj own
      obtain rfl := stays guard.1
      exact .inr (by simp [step, System.finish])

theorem other_threads {action : Action} (own : action.thread = some t) {u : ThreadId}
    (elsewhere : u ≠ t) : (s.step action).threads u = s.threads u := by
  refine s.step_threads ?_
  rw [own]
  exact fun same => elsewhere (Option.some.inj same).symm

/-- A thread that works for a task before or after a step about another task is left
alone. -/
theorem other_works {action : Action} (guard : s.Guard action) (other : action.subject ≠ some r)
    (works : (s.threads t).WorksFor r ∨ ((s.step action).threads t).WorksFor r) :
    ((s.step action).threads t).pc = (s.threads t).pc ∧
      ((s.step action).threads t).dispatchedBy = (s.threads t).dispatchedBy := by
  by_cases own : action.thread = some t
  · have idle (elsewhere : ¬ (s.threads t).WorksFor r)
        (after : ¬ ((s.step action).threads t).WorksFor r) : False := works.elim elsewhere after
    have apart {q : RunnerId} (about : action.subject = some q) : q ≠ r := by
      rintro rfl
      exact other about
    have inBody {q : RunnerId} (inside : (s.threads t).pc = .body q)
        (about : action.subject = some q) : False := by
      have before : ¬ (s.threads t).WorksFor r := by
        simp [Thread.WorksFor, inside, apart about]
      rcases body_step own inside guard with stays | exits
      · exact idle before (by simp [Thread.WorksFor, stays, apart about])
      · exact idle before (by simp [Thread.WorksFor, exits])
    cases action with
    | runAsync | proceed | setStatus | reset => cases own
    | runAsyncHere u q | currentScheduler u =>
        obtain rfl := Option.some.inj own
        exact ⟨rfl, rfl⟩
    | dispatch u closure =>
        obtain rfl := Option.some.inj own
        refine (idle ?_ ?_).elim
        · simp [Thread.WorksFor, guard.1]
        · simp [Thread.WorksFor, step, onEnter, apart (q := closure.runner) rfl]
    | enter u q kind =>
        obtain rfl := Option.some.inj own
        have entered : (s.threads u).pc = .entered q kind := guard
        refine (idle ?_ ?_).elim
        · simp [Thread.WorksFor, entered, apart (q := q) rfl]
        · cases kind with
          | start => simp [Thread.WorksFor, step, start, apart (q := q) rfl]
          | proceed =>
              change ¬ ((s.resume u q).threads u).WorksFor r
              rcases resume_pc (s := s) (t := u) (r := q) with body | exits
              · simp [Thread.WorksFor, body, apart (q := q) rfl]
              · simp [Thread.WorksFor, exits]
    | handleEvents u q | disableEvents u q | enableEvents u q | enterGuard u q | raise u q
    | defer u q | switchTo u q dst | enterAccess u q dst =>
        obtain rfl := Option.some.inj own
        exact (inBody guard rfl).elim
    | leaveScope u q | catchException u q | finish u q =>
        obtain rfl := Option.some.inj own
        exact (inBody guard.1 rfl).elim
    | onExit u q =>
        obtain rfl := Option.some.inj own
        have exits : (s.threads u).pc = .exiting q := guard
        refine (idle ?_ ?_).elim
        · simp [Thread.WorksFor, exits]
        · simp only [step, onExit]
          split <;> simp [Thread.WorksFor, takeHandler, delete]
    | callProceed u q | returnHandler u q | detach u =>
        obtain rfl := Option.some.inj own
        refine (idle ?_ ?_).elim
        · have place := guard
          simp only [Guard] at place
          simp [Thread.WorksFor, place]
        · simp [Thread.WorksFor, step, detach]
  · rw [step_threads s own]
    exact ⟨rfl, rfl⟩

/-- A step about another task leaves a set of tasks alone. -/
structure Spares (members : RunnerId → Bool) (s after : System) : Prop where
  runners : ∀ r, members r = true → after.runners r = s.runners r
  posted : after.posted.filter (fun closure => members closure.runner) =
    s.posted.filter fun closure => members closure.runner
  threads : ∀ t r, members r = true →
    (s.threads t).WorksFor r ∨ (after.threads t).WorksFor r →
      (after.threads t).pc = (s.threads t).pc ∧
        (after.threads t).dispatchedBy = (s.threads t).dispatchedBy

theorem step_spares {members : RunnerId → Bool} {action : Action} (guard : s.Guard action)
    (others : ∀ r, action.subject = some r → members r = false) :
    Spares members s (s.step action) where
  runners r member := by
    refine s.step_runners fun own => ?_
    simp [others r (Action.subject_of_runner own)] at member
  posted := by
    rw [step_posted]
    cases action with
    | runAsync created dst | runAsyncHere u created =>
        simp [others created rfl]
    | callProceed u q | proceed q => simp [others q rfl]
    | dispatch u closure =>
        exact filter_erase_of_not (fun closure : Closure => members closure.runner)
          (others closure.runner rfl) s.posted
    | _ => rfl
  threads t r member works := by
    refine other_works guard (fun about => ?_) works
    simp [others r about] at member

end System

end FlatAsync
